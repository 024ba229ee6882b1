import Tapip.Sockets.Invariants
import Tapip.Sockets.Moves
import Tapip.Tcp.Arrival
import Tapip.Tcp.PureAck

/-! Resets are not answered, and they take connections off the tables. -/

namespace Tapip.Sockets.Inet

open Net.Pkb Foundation.Program Tcp Tcp.Connection Tcp.Acts Tcp.Links Relation

section Silence

variable {σ : Type} (env : TcpEnv σ) {seg : TcpSegment} {pkb : Pkbuf}

def processReset (pkb : Pkbuf) (seg : TcpSegment) : Option ℕ → Prog σ Unit
  | none => env.freePkb pkb
  | some id => do
    match (← getSk env id).state with
    | .closed | .listen => env.freePkb pkb
    | .synSent =>
      let tsk ← getSk env id
      if seg.ackBit && !(decide (seg.ack ≤ tsk.iss) || decide (seg.ack > tsk.sndNxt)) then
        modifySk env id (fun t => { t with state := .closed })
      env.freePkb pkb
    | _ =>
      if seqCheck seg (← getSk env id) then checkRst env id
      let _ ← getSk env id
      env.freePkb pkb

lemma tcpSendReset_of_rst (h : seg.rst = true) : tcpSendReset env seg = pure () := if_pos h

lemma drop_of_rst (h : seg.rst = true) (id : ℕ) : drop env id seg pkb = (do
    let _ ← getSk env id
    env.freePkb pkb) := by
  rw [drop]
  congr 1
  funext t
  simp [tcpSendAck, h]

lemma tcpProcess_of_rst (h : seg.rst = true) (id : Option ℕ) :
    tcpProcess env pkb seg id = processReset env pkb seg id := by
  cases id with
  | none => simp [tcpProcess, tcpClosed, processReset, tcpSendReset_of_rst env h]
  | some id =>
    rw [tcpProcess, processReset]
    congr 1
    funext t
    cases t.state
    case synSent =>
      simp only [tcpSynsent, h, if_true, tcpSendReset_of_rst env h, pure_bind]
      congr 1
      funext tsk
      generalize (decide (seg.ack ≤ tsk.iss) || decide (seg.ack > tsk.sndNxt)) = bad
      cases seg.ackBit <;> cases bad <;> simp
    case closed => simp [tcpClosed]
    case listen => simp [tcpListen, h]
    all_goals
      simp only [tcpArrive, h, Bool.not_true, Bool.false_eq_true, if_false, if_true, drop_of_rst env h]
      congr 1
      funext tsk
      cases seqCheck seg tsk <;> simp

lemma tcpProcess_ipSendOut (h : seg.rst = true) (id : Option ℕ)
    (out : Pkbuf → RtEntry → UInt32 → UInt32 → OutTcp → Prog σ Unit) :
    tcpProcess { env with ipSendOut := out } pkb seg id = tcpProcess env pkb seg id := by
  rw [tcpProcess_of_rst _ h, tcpProcess_of_rst _ h]
  cases id <;> rfl

end Silence

section Tables

structure Linked (g : Shown) : Prop where
  below : ∀ i v, g.sock i = some v → i < g.next
  entry : ∀ i, i ∈ g.etable ∨ i ∈ g.ltable ∨ i ∈ g.btable → i < g.next
  etable : g.etable.Nodup
  ltable : g.ltable.Nodup
  btable : g.btable.Nodup
  -- A sock told to listen while a thread sleeps in `tcp_connect` on it is unlinked from `ltable` only.
  ehashed : ∀ i v, g.sock i = some v → i ∈ g.etable → idles v.state = false → v.hashed = true
  lhashed : ∀ i v, g.sock i = some v → i ∈ g.ltable → v.hashed = true
  bhashed : ∀ i v, g.sock i = some v → i ∈ g.btable → v.bhashed = true
  listening : ∀ i v, g.sock i = some v → i ∈ g.ltable → v.state = .listen
  port : ∀ i v, g.sock i = some v → i ∈ g.btable → v.sport ≠ 0

structure Unlisted (v v' : View) : Prop where
  hashed : v'.hashed = v.hashed
  bhashed : v'.bhashed = v.bhashed
  sport : v'.sport = v.sport
  listening : v.state = .listen → v.hashed = true → v'.state = .listen
  idle : v.hashed = false → idles v.state = true → idles v'.state = true

variable {g g' : Shown} {i j : ℕ} {v v' : View} {e l b : List ℕ}

section Linked

variable (h : Linked g)

include h

lemma Linked.edit (hi : i < g.next) (he : e.Nodup) (hl : l.Nodup) (hb : b.Nodup)
    (hej : ∀ j, j ≠ i → j ∈ e → j ∈ g.etable) (hlj : ∀ j, j ≠ i → j ∈ l → j ∈ g.ltable)
    (hbj : ∀ j, j ≠ i → j ∈ b → j ∈ g.btable)
    (hv : (i ∈ e → idles v.state = false → v.hashed = true) ∧ (i ∈ l → v.hashed = true ∧ v.state = .listen) ∧
      (i ∈ b → v.bhashed = true ∧ v.sport ≠ 0)) :
    Linked { g.set i (some v) with etable := e, ltable := l, btable := b } := by
  have hsock : ∀ j u, j ≠ i → (Function.update g.sock i (some v)) j = some u → g.sock j = some u := by
    intro j u hj hu
    rwa [Function.update_of_ne hj] at hu
  have hself : ∀ u, (Function.update g.sock i (some v)) i = some u → v = u := by
    intro u hu
    rw [Function.update_self] at hu
    exact Option.some.inj hu
  refine ⟨fun j u hu => ?_, fun j hj => ?_, he, hl, hb, fun j u hu hj => ?_, fun j u hu hj => ?_,
    fun j u hu hj => ?_, fun j u hu hj => ?_, fun j u hu hj => ?_⟩ <;> by_cases hji : j = i
  · exact hji ▸ hi
  · exact h.below j u (hsock j u hji hu)
  · exact hji ▸ hi
  · exact h.entry j (hj.imp (hej j hji) (Or.imp (hlj j hji) (hbj j hji)))
  · subst hji
    exact hself u hu ▸ hv.1 hj
  · exact h.ehashed j u (hsock j u hji hu) (hej j hji hj)
  · subst hji
    exact hself u hu ▸ (hv.2.1 hj).1
  · exact h.lhashed j u (hsock j u hji hu) (hlj j hji hj)
  · subst hji
    exact hself u hu ▸ (hv.2.2 hj).1
  · exact h.bhashed j u (hsock j u hji hu) (hbj j hji hj)
  · subst hji
    exact hself u hu ▸ (hv.2.1 hj).2
  · exact h.listening j u (hsock j u hji hu) (hlj j hji hj)
  · subst hji
    exact hself u hu ▸ (hv.2.2 hj).2
  · exact h.port j u (hsock j u hji hu) (hbj j hji hj)

lemma Linked.free (i : ℕ) : Linked (g.set i none) := by
  have hsock : ∀ j u, (Function.update g.sock i none) j = some u → g.sock j = some u := by
    intro j u hu
    by_cases hj : j = i
    · subst hj
      simp at hu
    · rwa [Function.update_of_ne hj] at hu
  exact ⟨fun j u hu => h.below j u (hsock j u hu), h.entry, h.etable, h.ltable, h.btable,
    fun j u hu => h.ehashed j u (hsock j u hu), fun j u hu => h.lhashed j u (hsock j u hu),
    fun j u hu => h.bhashed j u (hsock j u hu),
    fun j u hu => h.listening j u (hsock j u hu), fun j u hu => h.port j u (hsock j u hu)⟩

lemma Linked.grow : Linked { g with next := g.next + 1 } :=
  { h with
    below := fun j u hu => Nat.lt_succ_of_lt (h.below j u hu)
    entry := fun j hj => Nat.lt_succ_of_lt (h.entry j hj) }

lemma Linked.fresh : g.next ∉ g.etable ∧ g.next ∉ g.ltable ∧ g.next ∉ g.btable :=
  ⟨fun hm => lt_irrefl _ (h.entry _ (.inl hm)), fun hm => lt_irrefl _ (h.entry _ (.inr (.inl hm))),
    fun hm => lt_irrefl _ (h.entry _ (.inr (.inr hm)))⟩

lemma Linked.touch (hi : g.sock i = some v) (hr : Unlisted v v') : Linked (g.set i (some v')) := by
  refine h.edit (h.below i v hi) h.etable h.ltable h.btable (fun _ _ hj => hj) (fun _ _ hj => hj) (fun _ _ hj => hj)
    ⟨fun hm hs => ?_, fun hm => ?_, fun hm => ⟨hr.bhashed ▸ h.bhashed i v hi hm, hr.sport ▸ h.port i v hi hm⟩⟩
  · rw [hr.hashed]
    by_contra hh
    have hh : v.hashed = false := eq_false_of_ne_true hh
    cases hidle : idles v.state with
    | true => simp [hr.idle hh hidle] at hs
    | false => simp [h.ehashed i v hi hm hidle] at hh
  · have hh := h.lhashed i v hi hm
    exact ⟨hr.hashed.trans hh, hr.listening (h.listening i v hi hm) hh⟩

lemma Linked.unhash (hi : g.sock i = some v) (hb : v'.bhashed = v.bhashed) (hp : v'.sport = v.sport)
    (hs : v'.state = v.state) :
    Linked { g.set i (some v') with etable := unlinked i g.ltable g.etable, ltable := g.ltable.erase i } := by
  have hsub : (unlinked i g.ltable g.etable).Sublist g.etable := by
    rw [unlinked]
    split_ifs
    · exact .refl _
    · exact List.erase_sublist
  refine h.edit (h.below i v hi) (h.etable.sublist hsub) (h.ltable.erase i) h.btable (fun _ _ hj => hsub.subset hj)
    (fun _ _ => List.mem_of_mem_erase) (fun _ _ hj => hj) ⟨fun hm hidle => ?_, ?_, ?_⟩
  · rw [unlinked] at hm
    split_ifs at hm with hl
    · rw [hs, h.listening i v hi hl] at hidle
      cases hidle
    · exact absurd hm h.etable.not_mem_erase
  · exact fun hm => absurd hm h.ltable.not_mem_erase
  · exact fun hm => ⟨hb ▸ h.bhashed i v hi hm, hp ▸ h.port i v hi hm⟩

lemma Linked.not_listening (hi : g.sock i = some v) (hs : v.state ≠ .listen) : i ∉ g.ltable :=
  fun hm => hs (h.listening i v hi hm)

lemma Linked.act (ha : Act Unlisted g g') : Linked g' := by
  cases ha with
  | set hi hr => exact h.touch hi hr
  | free => exact h.free _
  | @alloc v hborn =>
    obtain ⟨he, hl, hb⟩ := h.fresh
    exact h.grow.edit (Nat.lt_succ_self _) h.etable h.ltable h.btable (fun _ _ hj => hj) (fun _ _ hj => hj)
      (fun _ _ hj => hj) ⟨fun hm => absurd hm he, fun hm => absurd hm hl, fun hm => absurd hm hb⟩
  | @request v p hborn hs =>
    obtain ⟨he, hl, hb⟩ := h.fresh
    exact h.grow.edit (Nat.lt_succ_self _) (List.nodup_cons.mpr ⟨he, h.etable⟩) h.ltable h.btable
      (fun j hj hm => (List.mem_cons.mp hm).resolve_left hj) (fun _ _ hj => hj) (fun _ _ hj => hj)
      ⟨fun _ _ => rfl, fun hm => absurd hm hl, fun hm => absurd hm hb⟩
  | @hash i v hi hs hnew =>
    have hl := h.not_listening hi (by simp [hs])
    exact h.edit (h.below i v hi) (List.nodup_cons.mpr ⟨hnew, h.etable⟩) h.ltable h.btable
      (fun j hj hm => (List.mem_cons.mp hm).resolve_left hj) (fun _ _ hj => hj) (fun _ _ hj => hj)
      ⟨fun _ _ => rfl, fun hm => absurd hm hl, fun hm => ⟨h.bhashed i v hi hm, h.port i v hi hm⟩⟩
  | @listen i v hi hs =>
    have hnew := h.not_listening hi (by simp [hs])
    exact h.edit (h.below i v hi) h.etable (List.nodup_cons.mpr ⟨hnew, h.ltable⟩) h.btable (fun _ _ hj => hj)
      (fun j hj hm => (List.mem_cons.mp hm).resolve_left hj) (fun _ _ hj => hj)
      ⟨fun _ _ => rfl, fun _ => ⟨rfl, rfl⟩, fun hm => ⟨h.bhashed i v hi hm, h.port i v hi hm⟩⟩
  | unhash hi _ => exact h.unhash hi rfl rfl rfl
  | discard hi _ _ => exact h.unhash hi rfl rfl rfl
  | @bhash i v port hi h0 hp =>
    have hnew : i ∉ g.btable := fun hm => h.port i v hi hm h0
    exact h.edit (h.below i v hi) h.etable h.ltable (List.nodup_cons.mpr ⟨hnew, h.btable⟩) (fun _ _ hj => hj)
      (fun _ _ hj => hj) (fun j hj hm => (List.mem_cons.mp hm).resolve_left hj)
      ⟨h.ehashed i v hi, fun hm => ⟨h.lhashed i v hi hm, h.listening i v hi hm⟩, fun _ => ⟨rfl, hp⟩⟩
  | @unbhash i v hi hb =>
    exact h.edit (h.below i v hi) h.etable h.ltable (h.btable.erase i) (fun _ _ hj => hj) (fun _ _ hj => hj)
      (fun _ _ => List.mem_of_mem_erase)
      ⟨h.ehashed i v hi, fun hm => ⟨h.lhashed i v hi hm, h.listening i v hi hm⟩,
        fun hm => absurd hm h.btable.not_mem_erase⟩

end Linked

lemma unlisted_turn {st : TcpState} (hs : idles v.state = false) : Unlisted v { v with state := st } :=
  ⟨rfl, rfl, rfl, fun h => by simp [h, idles] at hs, fun _ h => by simp [h] at hs⟩

lemma fits_unlisted : Fits (fun _ => True) Unlisted where
  turn v st hs _ := unlisted_turn hs
  shut v hh := ⟨rfl, rfl, rfl, fun _ h => by simp [h] at hh, fun _ _ => rfl⟩
  wait v := ⟨rfl, rfl, rfl, fun h _ => h, fun _ h => h⟩
  orphan v p _ _ := ⟨rfl, rfl, rfl, fun h _ => h, fun _ h => h⟩
  dead v _ := ⟨rfl, rfl, rfl, fun h _ => h, fun _ h => h⟩

theorem linked_of_reached {ok : Host → Event → Prop} {h : Host} (hr : Reached ok h) : Linked (shown h.stack) := by
  induction hr with
  | boot => exact ⟨by simp [shown, boot, Local.sock], by simp [shown, boot], .nil, .nil, .nil,
      by simp [shown, boot, Local.sock], by simp [shown, boot, Local.sock], by simp [shown, boot, Local.sock],
      by simp [shown, boot, Local.sock], by simp [shown, boot, Local.sock]⟩
  | step _ _ hrun ih =>
    refine Chain.invariant (exec_moves _ fits_unlisted (fun _ _ _ _ _ _ _ => trivial) ?_ ?_ hrun)
      (fun ha hg => hg.act ha) ih
    · exact fun _ _ _ _ v => ⟨rfl, rfl, rfl, fun h _ => h, fun _ h => h⟩
    · exact fun _ _ _ t _ _ _ _ hs _ => unlisted_turn (by simp [view, hs, idles])

end Tables

section Reset

open Tcp.PureAck
open Tcp.Timer hiding Held

variable {net : Net} {s s' : Local} {t t' : TcpSock} {i : ℕ} {seg : TcpSegment} {pkb : Pkbuf} {u : Unit}

lemma unlinks (h : s.sock i = some t) (he : s.tcp.etable.Nodup) (hb : s.tcp.btable.Nodup) (hl : i ∉ s.tcp.ltable)
    (hhash : i ∈ s.tcp.etable → t.sk.hashed = true) (hbhash : i ∈ s.tcp.btable → t.bhashed = true)
    (hrun : (do
      tcpUnhash net.env i
      tcpUnbhash net.env i : Prog Local Unit) s = .ok (u, s')) :
    i ∉ s'.tcp.etable ∧ i ∉ s'.tcp.ltable ∧ i ∉ s'.tcp.btable := by
  obtain ⟨⟨⟩, s1, hunhash, hunbhash⟩ := bind_inv hrun
  obtain ⟨t0, ht0, -, rfl⟩ := tcpUnhash_inv hunhash
  cases Option.mem_unique h ht0
  obtain ⟨t1, ht1, rfl⟩ := tcpUnbhash_inv hunbhash
  rw [sock_edited] at ht1
  cases ht1
  rw [show (unhashed t).bhashed = t.bhashed from congrArg View.bhashed (view_unhashed t)]
  refine ⟨?_, fun hm => hl ?_, ?_⟩
  · simp only [edited, without, unlinked, if_neg hl, Bool.false_eq_true, if_false]
    split_ifs with hh
    · exact he.not_mem_erase
    · exact fun hm => hh (hhash hm)
  · simp only [edited, without, Bool.false_eq_true, if_false] at hm
    split_ifs at hm
    · exact List.mem_of_mem_erase hm
    · exact hm
  · simp only [edited, without, Bool.false_eq_true, if_false]
    split_ifs with hb1
    · exact hb.not_mem_erase
    · exact fun hm => hb1 (hbhash hm)

lemma processReset_synchronized (h : s.sock i = some t) (hs : synchronized t.state = true)
    (hseq : seqCheck seg t = true) : processReset net.env pkb seg (some i) s = (do
      checkRst net.env i
      let _ ← getSk net.env i
      net.env.freePkb pkb : Prog Local Unit) s := by
  rw [processReset, bind_run (getSk_run h)]
  cases hst : t.state <;> simp [hst, synchronized] at hs <;>
    exact (bind_run (getSk_run h)).trans (by simp only [hseq, if_true])

lemma checkRst_synchronized (h : s.sock i = some t) (hs : synchronized t.state = true) : checkRst net.env i s = (do
      tcpUnhash net.env i
      tcpUnbhash net.env i : Prog Local Unit) (s.put i { t with state := .closed }) := by
  rw [checkRst, bind_run (getSk_run h), if_neg (by cases hst : t.state <;> simp [hst, synchronized] at hs ⊢)]
  exact bind_run (modifySk_run _ h)

lemma reset_unlinks (hl : Linked (shown s)) (hrst : seg.rst = true) (h : s.sock i = some t)
    (hs : synchronized t.state = true) (hseq : seqCheck seg t = true)
    (hrun : tcpProcess net.env pkb seg (some i) s = .ok (u, s')) : ∃ t', s'.sock i = some t' ∧
      t'.state = .closed ∧ i ∉ s'.tcp.etable ∧ i ∉ s'.tcp.ltable ∧ i ∉ s'.tcp.btable := by
  have hv := shown_sock h
  have hidle : idles (view t).state = false := by
    cases hst : t.state <;> simp [view, hst, synchronized, idles] at hs ⊢
  rw [tcpProcess_of_rst _ hrst, processReset_synchronized h hs hseq] at hrun
  obtain ⟨⟨⟩, s1, hrst, hrest⟩ := bind_inv hrun
  obtain ⟨t', s2, rfl, ht', hfree⟩ := getSk_bind_inv hrest
  cases hfree
  rw [checkRst_synchronized h hs] at hrst
  refine ⟨t', ht', ?_, ?_⟩
  · obtain ⟨⟨⟩, s1, hunhash, hunbhash⟩ := bind_inv hrst
    obtain ⟨-, t1, ht1, hv1⟩ := tcpUnhash_acts (R := Unlisted) sock_put hunhash
    have hv' := (tcpUnbhash_acts (R := Unlisted) ht1 hunbhash).2 t' ht'
    rw [hv1] at hv'
    exact congrArg View.state hv'
  · refine unlinks (t := { t with state := .closed }) sock_put hl.etable hl.btable (hl.not_listening hv fun hs => ?_)
      (fun hm => hl.ehashed i _ hv hm hidle) (hl.bhashed i _ hv) hrst
    simp [hs, idles] at hidle

lemma reset_returns (hrst : seg.rst = true) (h : s.sock i = some t) (hs : synchronized t.state = true)
    (hseq : seqCheck seg t = true) (hheld : Held t) :
    ∃ s', tcpProcess net.env pkb seg (some i) s = .ok ((), s') := by
  have hends : Ends i (checkRst net.env i) s () (unbhashed (unhashed { t with state := .closed })) := by
    refine (ends_getSk h).bind fun h1 => ?_
    rw [if_neg (by cases hst : t.state <;> simp [hst, synchronized] at hs ⊢)]
    exact (ends_modifySk h1).bind fun h2 => (ends_tcpUnhash h2 hheld).bind fun h3 =>
      ends_tcpUnbhash h3 (Held.unhashed hheld)
  obtain ⟨s', hrun, -, ht'⟩ := hends
  refine ⟨s', ?_⟩
  rw [tcpProcess_of_rst _ hrst, processReset_synchronized h hs hseq, bind_run hrun,
    bind_run (getSk_run ht')]
  rfl

lemma reset_sends_nothing (hrst : seg.rst = true) {sk : Option ℕ}
    (hrun : tcpProcess net.env pkb seg sk s = .ok (u, s')) : s'.sent = s.sent := by
  have hfree : Respects (Keeps 0 Arrival.Touches (fun _ => False)) (net.env.freePkb pkb) := keeps_pure _
  have hkeep : Respects (Keeps 0 Arrival.Touches (fun _ => False)) (processReset net.env pkb seg sk) := by
    cases sk with
    | none => exact hfree
    | some i =>
      refine Keeps.bind (keeps_getSk i) fun t => ?_
      cases t.state
      case closed | listen => exact hfree
      case synSent =>
        refine Keeps.bind (keeps_getSk i) fun tsk => ?_
        split_ifs
        · exact Keeps.bind (Arrival.touches_close i) fun _ => hfree
        · exact hfree
      all_goals
        refine Keeps.bind (keeps_getSk i) fun tsk => ?_
        split_ifs
        · exact Keeps.bind (Arrival.touches_checkRst i) fun _ => Keeps.bind (keeps_getSk i) fun _ => hfree
        · exact Keeps.bind (keeps_getSk i) fun _ => hfree
  rw [tcpProcess_of_rst _ hrst] at hrun
  obtain ⟨-, new, hsent, hnew⟩ := hkeep _ _ _ hrun
  obtain rfl : new = [] := List.eq_nil_iff_forall_not_mem.mpr hnew
  simpa using hsent

lemma held_of_orderly {h : Host} {sk : Option ℕ} (hr : Reached (Orderly False False False) h)
    (hl : tcpLookupSock net.env seg.iphdrSrc seg.iphdrDst seg.tcphdrSrc seg.tcphdrDst h.stack = .ok (sk, s))
    (hi : sk = some i) (ht : s.sock i = some t) : Held t := by
  have hsound := (holds_of_reached hr).sound
  subst hi
  obtain ⟨-, t0, ht0, rfl⟩ := hsound.lookup hl ht
  have hge := hsound.refcnt_ge (node_of_sock ht0)
  have hown := own_nonneg h i
  have hlinks := links_nonneg (seen h.stack) i
  have hwait : (0 : ℤ) ≤ if i ∈ (seen h.stack).timewait then 1 else 0 := by split_ifs <;> simp
  have hflag : ∀ b : Bool, (if b = true then (1 : ℤ) else 0) = b.toNat := by
    intro b
    cases b <;> rfl
  change (if t0.sk.hashed = true then (1 : ℤ) else 0) + (if t0.bhashed = true then 1 else 0) < t0.sk.refcnt + 1
  rw [hflag, hflag]
  simp only [nodeOf] at hge
  omega

theorem resets_unanswered {h : Host} (hr : Reached (fun _ _ => True) h) (cfg : Config) (pkb : Pkbuf)
    (hrst : seg.rst = true) {sk : Option ℕ} (hl : tcpLookupSock cfg.env seg.iphdrSrc seg.iphdrDst
      seg.tcphdrSrc seg.tcphdrDst h.stack = .ok (sk, s)) :
    (∀ out, tcpProcess { cfg.env with ipSendOut := out } pkb seg sk s =
      tcpProcess cfg.env pkb seg sk s) ∧
    (∀ u s', tcpProcess cfg.env pkb seg sk s = .ok (u, s') → s'.sent = s.sent) ∧
    ∀ i t, sk = some i → s.sock i = some t → synchronized t.state = true → seqCheck seg t = true →
      (∀ u s', tcpProcess cfg.env pkb seg sk s = .ok (u, s') → ∃ t', s'.sock i = some t' ∧
        t'.state = .closed ∧ i ∉ s'.tcp.etable ∧ i ∉ s'.tcp.ltable ∧ i ∉ s'.tcp.btable) ∧
      (Reached (Orderly False False False) h →
        ∃ s', tcpProcess cfg.env pkb seg sk s = .ok ((), s')) := by
  refine ⟨fun out => ?_, fun u s' hrun => reset_sends_nothing hrst hrun, fun i t hi ht hs hseq => ⟨?_, ?_⟩⟩
  · rw [tcpProcess_ipSendOut _ hrst]
  · intro u s' hrun
    have hlinked : Linked (shown s) := by
      rw [still_tcpLookupSock _ _ _ _ _ _ _ hl]
      exact linked_of_reached hr
    exact reset_unlinks hlinked hrst ht hs hseq (hi ▸ hrun)
  · intro horderly
    rw [hi]
    exact reset_returns hrst ht hs hseq (held_of_orderly horderly hl hi ht)

def inWindow : TcpSegment := { bare 501 12345680 with rst := true }

theorem resets_unanswered_dialled : ∃ h s s' t', Reached (Orderly False False False) h ∧
    tcpLookupSock everywhere.env inWindow.iphdrSrc inWindow.iphdrDst inWindow.tcphdrSrc
      inWindow.tcphdrDst h.stack = .ok (some 0, s) ∧
    tcpProcess everywhere.env noPkb inWindow (some 0) s = .ok ((), s') ∧ s'.sent = s.sent ∧
    s'.sock 0 = some t' ∧ t'.state = .closed ∧ 0 ∉ s'.tcp.etable ∧ 0 ∉ s'.tcp.ltable ∧ 0 ∉ s'.tcp.btable := by
  obtain ⟨h, hr, hfound, t, ht, hs, hseq⟩ := exists_reached (Orderly False False False) dialled
    (P := fun h => outcome (tcpLookupSock everywhere.env inWindow.iphdrSrc inWindow.iphdrDst
        inWindow.tcphdrSrc inWindow.tcphdrDst) h.stack = some (some 0) ∧
      ∃ t, (finalState (tcpLookupSock everywhere.env inWindow.iphdrSrc inWindow.iphdrDst
        inWindow.tcphdrSrc inWindow.tcphdrDst) h.stack).sock 0 = some t ∧
        synchronized t.state = true ∧ seqCheck inWindow t = true) (by decide +kernel)
  have hl := run_of_outcome hfound
  obtain ⟨-, hsilent, hreset⟩ :=
    @resets_unanswered _ inWindow h (hr.mono fun _ _ _ => trivial) everywhere noPkb rfl _ hl
  obtain ⟨hclosed, hreturns⟩ := hreset 0 t rfl ht hs hseq
  obtain ⟨s', hrun⟩ := hreturns hr
  obtain ⟨t', ht', hgone⟩ := hclosed () s' hrun
  exact ⟨h, _, s', t', hr, hl, hrun, hsilent () s' hrun, ht', hgone⟩

end Reset

end Tapip.Sockets.Inet
