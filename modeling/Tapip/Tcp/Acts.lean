import Mathlib.Logic.Relation
import Tapip.Tcp.In
import Tapip.Tcp.Timer

/-! The steps in which the TCP layer makes, links and frees socks and changes their states. -/

namespace Tapip.Tcp.Acts

open Net.Pkb Foundation.Program Text Connection Relation Timer

variable {f : TcpSock → TcpSock} {u : Unit}

structure View where
  state : TcpState
  parent : Parent
  hashed : Bool
  bhashed : Bool
  sport : UInt16
  recvWait : Bool
  waitAccept : Bool

def view (t : TcpSock) : View where
  state := t.state
  parent := t.parent
  hashed := t.sk.hashed
  bhashed := t.bhashed
  sport := t.sk.skSport
  recvWait := t.sk.recvWait
  waitAccept := t.waitAccept

structure Shown where
  sock : ℕ → Option View
  next : ℕ
  etable : List ℕ
  ltable : List ℕ
  btable : List ℕ

def shown (s : Local) : Shown where
  sock id := (s.sock id).map view
  next := s.tcp.nextSock
  etable := s.tcp.etable
  ltable := s.tcp.ltable
  btable := s.tcp.btable

def Shown.set (g : Shown) (i : ℕ) (v : Option View) : Shown := { g with sock := Function.update g.sock i v }

def Born (v : View) : Prop :=
  v.parent = .none ∧ v.hashed = false ∧ v.bhashed = false ∧ v.waitAccept = false ∧
    (v.state = .closed ∧ v.sport = 0 ∧ v.recvWait = true ∨ v.state = .synRecv ∧ v.recvWait = false)

/-- One step, under the conditions the code takes it under; `R` says which changes of a sock are meant
where nothing is linked or unlinked. -/
inductive Act (R : View → View → Prop) (g : Shown) : Shown → Prop
  | set {i : ℕ} {v v' : View} : g.sock i = some v → R v v' → Act R g (g.set i (some v'))
  | free {i : ℕ} : Act R g (g.set i none)
  | alloc {v : View} : Born v → Act R g { g.set g.next (some v) with next := g.next + 1 }
  | request {v : View} {p : ℕ} : Born v → v.state = .synRecv → Act R g { g.set g.next
      (some { v with hashed := true, parent := .sock p }) with next := g.next + 1, etable := g.next :: g.etable }
  | hash {i : ℕ} {v : View} : g.sock i = some v → v.state = .closed → i ∉ g.etable → Act R g { g.set i
      (some { v with state := .synSent, hashed := true }) with etable := i :: g.etable }
  | listen {i : ℕ} {v : View} : g.sock i = some v → v.state = .closed → Act R g { g.set i
      (some { v with state := .listen, hashed := true }) with ltable := i :: g.ltable }
  | unhash {i : ℕ} {v : View} : g.sock i = some v → v.hashed = true → Act R g { g.set i
      (some { v with hashed := false }) with etable := unlinked i g.ltable g.etable, ltable := g.ltable.erase i }
  | discard {i p : ℕ} {v : View} : g.sock i = some v → v.hashed = true → v.parent = .sock p →
      Act R g { g.set i (some { v with hashed := false, parent := .none }) with
        etable := unlinked i g.ltable g.etable, ltable := g.ltable.erase i }
  | bhash {i : ℕ} {v : View} {port : UInt16} : g.sock i = some v → v.sport = 0 → port ≠ 0 → Act R g { g.set i
      (some { v with sport := port, bhashed := true }) with btable := i :: g.btable }
  | unbhash {i : ℕ} {v : View} : g.sock i = some v → v.bhashed = true →
      Act R g { g.set i (some { v with bhashed := false }) with btable := g.btable.erase i }

abbrev Chain (R : View → View → Prop) : Shown → Shown → Prop := ReflTransGen (Act R)

lemma Chain.invariant {R : View → View → Prop} {I : Shown → Prop} {g g' : Shown} (h : Chain R g g')
    (hi : ∀ {g g'}, Act R g g' → I g → I g') (hg : I g) : I g' := by
  induction h with
  | refl => exact hg
  | tail _ ha ih => exact hi ha ih

section Walk

variable {net : Net} {R : View → View → Prop} {s s' : Local} {t t' : TcpSock} {seg : TcpSegment} {pkb : Pkbuf}
  {α β : Type} {i j : ℕ}

def Still (x : Prog Local α) : Prop := Respects (fun s s' => shown s' = shown s) x

def Does (R : View → View → Prop) (x : Prog Local α) : Prop :=
  Respects (fun s s' => Chain R (shown s) (shown s')) x

lemma Still.does {x : Prog Local α} (h : Still x) : Does R x := by
  intro s a s' hrun
  rw [h s a s' hrun]

lemma still_pure (a : α) : Still (pure a : Prog Local α) := by
  intro s b s' hrun
  cases hrun
  rfl

lemma does_pure {a : α} : Does R (pure a : Prog Local α) := (still_pure a).does

lemma still_fault {e : Fault} : Still (fault e : Prog Local α) := by
  intro s a s' hrun
  simp [fault] at hrun

lemma Still.bind {x : Prog Local α} {f : α → Prog Local β} (hx : Still x) (hf : ∀ a, Still (f a)) :
    Still (x >>= f) := Respects.bind (fun h1 h2 => h2.trans h1) hx hf

lemma Does.bind {x : Prog Local α} {f : α → Prog Local β} (hx : Does R x) (hf : ∀ a, Does R (f a)) :
    Does R (x >>= f) := Respects.bind (fun h1 h2 => h1.trans h2) hx hf

lemma still_getSk (j : ℕ) : Still (getSk net.env j) := by
  intro s t s' hrun
  obtain ⟨-, rfl⟩ := getSk_inv hrun
  rfl

lemma shown_edited (s : Local) (i : ℕ) (o : Option TcpSock) (b h : Bool) :
    shown (edited s i o b h) = { (shown s).set i (o.map view) with
      etable := if h then unlinked i s.tcp.ltable s.tcp.etable else s.tcp.etable
      ltable := without i h s.tcp.ltable
      btable := without i b s.tcp.btable } := by
  simp only [shown, Shown.set, edited, Local.sock, Shown.mk.injEq, and_true]
  funext j
  by_cases hj : j = i
  · subst hj
    simp
  · simp [hj]

lemma shown_put (s : Local) (i : ℕ) (t : TcpSock) : shown (s.put i t) = (shown s).set i (some (view t)) :=
  shown_edited s i (some t) false false

lemma shown_put_same (h : s.sock i = some t) (hv : view t' = view t) : shown (s.put i t') = shown s := by
  rw [shown_put, hv]
  simp only [Shown.set]
  rw [show Function.update (shown s).sock i (some (view t)) = (shown s).sock by
    refine Function.update_eq_self_iff.mpr ?_
    simp [shown, h]]

lemma shown_sock (h : s.sock i = some t) : (shown s).sock i = some (view t) := by simp [shown, h]

lemma sock_of_shown {v : View} (h : (shown s).sock i = some v) : ∃ t, s.sock i = some t ∧ view t = v :=
  Option.map_eq_some_iff.mp h

lemma still_modifySk (hf : ∀ t, view (f t) = view t) (j : ℕ) : Still (modifySk net.env j f) := by
  rintro s ⟨⟩ s' hrun
  obtain ⟨t, ht, rfl⟩ := modifySk_inv hrun
  exact shown_put_same ht (hf t)

lemma still_modifyWorld {f : TcpWorld → TcpWorld} (hf : ∀ w, (f w).socks = w.socks ∧
    (f w).nextSock = w.nextSock ∧ (f w).etable = w.etable ∧ (f w).ltable = w.ltable ∧ (f w).btable = w.btable) :
    Still (modifyWorld net.env f) := by
  rintro s ⟨⟩ s' hrun
  cases hrun
  obtain ⟨h1, h2, h3, h4, h5⟩ := hf s.tcp
  simp [shown, Local.sock, Net.env, h1, h2, h3, h4, h5]

lemma still_getWorld : Still (getWorld net.env) := by
  intro s w s' hrun
  cases hrun
  rfl

lemma modifySk_acts (h : s.sock i = some t) (hr : R (view t) (view (f t)))
    (hrun : modifySk net.env i f s = .ok (u, s')) : Chain R (shown s) (shown s') ∧ s'.sock i = some (f t) := by
  rw [modifySk_run f h] at hrun
  cases hrun
  rw [shown_put]
  exact ⟨.single (.set (shown_sock h) hr), sock_put⟩

lemma freeSock_shown (hrun : freeSock net.env j s = .ok (u, s')) :
    shown s' = shown s ∨ shown s' = (shown s).set j none := by
  obtain ⟨t, ht, rfl⟩ := freeSock_inv hrun
  rw [dropRef]
  split_ifs
  · exact .inr (shown_edited s j none false false)
  · exact .inl (shown_put_same ht rfl)

lemma does_freeSock (j : ℕ) : Does R (freeSock net.env j) := by
  intro s u s' hrun
  rcases freeSock_shown hrun with h | h
  · rw [h]
  · exact h ▸ .single .free

lemma freeSock_survivor (hrun : freeSock net.env j s = .ok (u, s')) (h : s'.sock i = some t') :
    ∃ t, s.sock i = some t ∧ view t = view t' := by
  apply sock_of_shown
  have hv := shown_sock h
  rcases freeSock_shown hrun with hs | hs
  · rwa [hs] at hv
  · rw [hs, Shown.set] at hv
    by_cases hij : i = j
    · subst hij
      simp at hv
    · simpa [hij] using hv

lemma freed_view {v : View} (hs : (shown s).sock i = some v)
    (hfree : freeSock net.env j s = .ok (u, s')) (h : s'.sock i = some t') : view t' = v := by
  obtain ⟨t1, ht1, hv⟩ := freeSock_survivor hfree h
  rw [shown_sock ht1] at hs
  exact hv.symm.trans (Option.some.inj hs)

section Tables

lemma shown_modify {f : TcpWorld → TcpWorld} (hrun : modifyWorld net.env f s = .ok (u, s'))
    (hs : ∀ w, (f w).socks = w.socks ∧ (f w).nextSock = w.nextSock) :
    shown s' = { shown s with
      etable := (f s.tcp).etable, ltable := (f s.tcp).ltable, btable := (f s.tcp).btable } ∧
      s'.sock = s.sock := by
  cases hrun
  obtain ⟨h1, h2⟩ := hs s.tcp
  constructor
  · simp [shown, Local.sock, Net.env, h1, h2]
  · funext k
    simp [Local.sock, Net.env, h1]

lemma view_unhashed (t : TcpSock) : view (unhashed t) = { view t with hashed := false } := by
  rw [unhashed]
  split_ifs with hh
  · rfl
  · rw [← show (view t).hashed = false from eq_false_of_ne_true hh]

lemma tcpUnhash_acts (h : s.sock i = some t) (hrun : tcpUnhash net.env i s = .ok (u, s')) :
    Chain R (shown s) (shown s') ∧ ∃ t', s'.sock i = some t' ∧ view t' = { view t with hashed := false } := by
  obtain ⟨t0, ht0, -, rfl⟩ := tcpUnhash_inv hrun
  cases Option.mem_unique h ht0
  refine ⟨?_, _, sock_edited, view_unhashed t⟩
  cases hh : t.sk.hashed with
  | false =>
    rw [show unhashed t = t by simp [unhashed, hh], edited_self h]
  | true =>
    rw [shown_edited, Option.map_some, view_unhashed]
    exact .single (.unhash (shown_sock h) hh)

lemma does_tcpUnhash (j : ℕ) : Does R (tcpUnhash net.env j) := by
  intro s u s' hrun
  have hread := hrun
  obtain ⟨t, -, -, ht, -⟩ := getSk_bind_inv hread
  exact (tcpUnhash_acts ht hrun).1

lemma tcpUnbhash_acts (h : s.sock i = some t) (hrun : tcpUnbhash net.env i s = .ok (u, s')) :
    Chain R (shown s) (shown s') ∧ ∀ t', s'.sock i = some t' → view t' = { view t with bhashed := false } := by
  obtain ⟨t0, ht0, rfl⟩ := tcpUnbhash_inv hrun
  cases Option.mem_unique h ht0
  rw [sock_edited, leftBhash]
  cases hb : t.bhashed with
  | false =>
    refine ⟨by rw [if_neg Bool.false_ne_true, edited_self h], fun t' ht' => ?_⟩
    cases ht'
    rw [← show (view t).bhashed = false from hb]
  | true =>
    have hact := Act.unbhash (R := R) (shown_sock h) hb
    rw [if_pos rfl, dropRef]
    split_ifs <;> rw [shown_edited]
    · refine ⟨?_, fun t' ht' => by cases ht'⟩
      have hfree := (ReflTransGen.single hact).tail (.free (i := i))
      simp only [Shown.set, Function.update_idem] at hfree
      exact hfree
    · refine ⟨.single hact, fun t' ht' => ?_⟩
      cases ht'
      rfl

lemma does_tcpUnbhash (j : ℕ) : Does R (tcpUnbhash net.env j) := by
  intro s u s' hrun
  have hread := hrun
  obtain ⟨t, -, -, ht, -⟩ := getSk_bind_inv hread
  exact (tcpUnbhash_acts ht hrun).1

lemma not_mem_of_no_conflict (h : s.sock i = some t) (hc : ¬ehashConflict s.tcp t = true) : i ∉ s.tcp.etable := by
  intro hm
  apply hc
  rw [ehashConflict, List.any_eq_true]
  refine ⟨i, hm, ?_⟩
  rw [show s.tcp.socks i = some t from h]
  simp

lemma tcpHash_acts {b : Bool} (h : s.sock i = some t) (hl : t.state ≠ .listen)
    (hrun : tcpHash net.env i s = .ok (b, s')) :
    (b = false ∧ s' = s) ∨ b = true ∧ i ∉ s.tcp.etable ∧ shown s' = { (shown s).set i
      (some { view t with hashed := true }) with etable := i :: s.tcp.etable } ∧
        ∃ t', s'.sock i = some t' ∧ view t' = { view t with hashed := true } := by
  rw [tcpHash, bind_run (getSk_run h), if_neg hl] at hrun
  split_ifs at hrun
  · cases hrun
    exact .inl ⟨rfl, rfl⟩
  · obtain ⟨w, s0, hget, hrest⟩ := bind_inv hrun
    cases hget
    split_ifs at hrest with hc
    · cases hrest
      exact .inl ⟨rfl, rfl⟩
    · obtain ⟨⟨⟩, s1, hset, hrest⟩ := bind_inv hrest
      rw [modifySk_run _ h] at hset
      cases hset
      obtain ⟨⟨⟩, s2, hworld, hret⟩ := bind_inv hrest
      cases hret
      obtain ⟨hshown, hsock⟩ := shown_modify hworld fun _ => ⟨rfl, rfl⟩
      rw [shown_put] at hshown
      exact .inr ⟨rfl, not_mem_of_no_conflict h hc, hshown, _, by rw [hsock, sock_put], rfl⟩

end Tables

section Still

lemma still_getSock (j : ℕ) : Still (getSock net.env j) := still_modifySk (fun _ => by rfl) j

lemma still_wakeUp (b : Bool) : Still (wakeUp b : Prog Local Unit) := by
  rw [wakeUp]
  split_ifs
  · exact still_pure _
  · exact still_fault

lemma still_allocNewIss : Still (allocNewIss net.env) :=
  Still.bind (still_getWorld) fun _ =>
    Still.bind (still_modifyWorld fun _ => ⟨rfl, rfl, rfl, rfl, rfl⟩) fun _ => still_pure _

lemma still_tcpSendOut {tsk : Option ℕ} {pkb : Pkbuf} {out : OutTcp} {seg : Option TcpSegment} :
    Still (tcpSendOut net.env tsk pkb out seg) := by
  have hseq : Sequential fun (α : Type) (x : Prog Local α) => Still x := ⟨still_pure, Still.bind⟩
  apply sequential_tcpSendOut hseq
  · exact fun j _ => still_getSk j
  · exact still_fault
  · intro daddr
    apply sequential_tcpRoute hseq
    · exact fun j _ => still_getSk j
    · exact still_pure _
    · exact fun j _ rt => still_modifySk (fun _ => by rfl) j
  · exact still_pure _
  · rintro rt saddr daddr - s ⟨⟩ s' hrun
    cases hrun
    rfl

lemma still_tcpSendReset (seg : TcpSegment) : Still (tcpSendReset net.env seg) := by
  rw [tcpSendReset]
  split_ifs
  · exact still_pure _
  · exact Still.bind (still_pure _) fun _ => still_tcpSendOut

lemma still_tcpSendAck (j : ℕ) (seg : Option TcpSegment) : Still (tcpSendAck net.env j seg) := by
  cases seg with
  | none => exact still_fault
  | some seg =>
    rw [tcpSendAck]
    split_ifs
    · exact still_pure _
    · exact Still.bind (still_pure _) fun _ => Still.bind (still_getSk j) fun _ => still_tcpSendOut

lemma still_tcpSendSynack (j : ℕ) (seg : TcpSegment) : Still (tcpSendSynack net.env j seg) := by
  rw [tcpSendSynack]
  split_ifs
  · exact still_pure _
  · exact Still.bind (still_pure _) fun _ => Still.bind (still_getSk j) fun _ => still_tcpSendOut

lemma still_tcpSendSyn (j : ℕ) : Still (tcpSendSyn net.env j) :=
  Still.bind (still_pure _) fun _ => Still.bind (still_getSk j) fun _ => still_tcpSendOut

lemma still_tcpSendFin (j : ℕ) : Still (tcpSendFin net.env j) :=
  Still.bind (still_pure _) fun _ => Still.bind (still_getSk j) fun _ => still_tcpSendOut

lemma still_sendTextLoop (j : ℕ) (buf : List UInt8) (len : ℤ) (fuel : ℕ) (segsize slen : ℤ) :
    Still (sendTextLoop net.env j buf len fuel segsize slen) := by
  induction fuel generalizing segsize slen with
  | zero =>
    rw [sendTextLoop]
    split_ifs
    · exact still_fault
    · exact still_pure _
  | succ fuel ih =>
    rw [sendTextLoop]
    split_ifs
    · exact Still.bind (still_pure _) fun _ => Still.bind (still_getSk j) fun _ =>
        Still.bind (still_modifySk (fun _ => by rfl) j) fun _ =>
          Still.bind still_tcpSendOut fun _ => ih _ _
    · exact still_pure _

lemma still_tcpSendText (j : ℕ) (buf : List UInt8) (len : ℤ) : Still (tcpSendText net.env j buf len) := by
  refine Still.bind (still_getSk j) fun t => ?_
  cases t.sk.skDst with
  | none => exact still_fault
  | some rt =>
    refine Still.bind (still_pure _) fun mtu => Still.bind (still_sendTextLoop _ _ _ _ _ _) fun slen => ?_
    split_ifs
    · exact Still.bind (still_tcpSendAck j none) fun _ => still_pure _
    · exact still_pure _

lemma still_tcpSendBuf (j : ℕ) (buf : List UInt8) (len : ℤ) : Still (tcpSendBuf net.env j buf len) := by
  refine Still.bind (still_getSk j) fun t => ?_
  split_ifs
  · exact still_tcpSendText j buf len
  · exact still_pure _

lemma still_drop (j : ℕ) (seg : TcpSegment) (pkb : Pkbuf) : Still (drop net.env j seg pkb) := by
  refine Still.bind (still_getSk j) fun t => ?_
  split_ifs
  · exact Still.bind (still_tcpSendAck j _) fun _ => still_pure _
  · exact still_pure _

lemma still_tcpSynrecvAck (j : ℕ) : Still (tcpSynrecvAck net.env j) := by
  refine Still.bind (still_getSk j) fun t => ?_
  cases t.parent with
  | none => exact still_fault
  | dead => exact still_fault
  | sock parent =>
    refine Still.bind (still_getSk parent) fun p => ?_
    split_ifs
    · exact still_pure _
    · exact still_pure _
    · exact Still.bind (still_modifySk (fun _ => by rfl) parent) fun _ =>
        Still.bind (still_modifySk (fun _ => by rfl) j) fun _ => Still.bind (still_getSk parent) fun _ =>
          Still.bind (still_wakeUp _) fun _ => still_pure _

lemma still_checkText (j : ℕ) (seg : TcpSegment) (pkb : Pkbuf) : Still (checkText net.env j seg pkb) := by
  intro s seg' s' hrun
  obtain ⟨t, -, -, h, -⟩ := getSk_bind_inv hrun
  obtain ⟨t1, htext, rfl⟩ := checkText_inv h hrun
  refine shown_put_same h ?_
  obtain ⟨r, -, -, hrecv, rfl, -⟩ | ⟨rfl, -⟩ := texted_inv htext
  · obtain ⟨_, _, _, _, _, _, _, hrest⟩ := tcpRecvText_receives hrecv
    rw [hrest]
    rfl
  · rfl

lemma still_lookupChain (isMatch : TcpSock → Bool) (ids : List ℕ) : Still (lookupChain net.env isMatch ids) := by
  induction ids with
  | nil => exact still_pure _
  | cons j ids ih =>
    refine Still.bind (still_getSk j) fun t => ?_
    split_ifs
    · exact Still.bind (still_getSock j) fun _ => still_pure _
    · exact ih

lemma still_tcpLookupSock (src dst : UInt32) (srcPort dstPort : UInt16) :
    Still (tcpLookupSock net.env src dst srcPort dstPort) := by
  refine Still.bind (Still.bind (still_getWorld) fun _ => still_lookupChain _ _) fun r => ?_
  cases r with
  | some j => exact still_pure _
  | none => exact Still.bind (still_getWorld) fun _ => still_lookupChain _ _

end Still

section Segment

def idles : TcpState → Bool
  | .closed | .listen => true
  | _ => false

def later : TcpState → Bool
  | .listen | .synSent | .synRecv => false
  | _ => true

variable (hst : ∀ v st, idles v.state = false → later st = true → R v { v with state := st })

include hst

lemma turn_acts (st : TcpState) (h : s.sock i = some t)
    (hl : idles t.state = false) (hlater : later st = true) (hv : view (f t) = { view t with state := st })
    (hrun : modifySk net.env i f s = .ok (u, s')) : Chain R (shown s) (shown s') ∧ s'.sock i = some (f t) :=
  modifySk_acts h (hv ▸ hst (view t) st hl hlater) hrun

lemma shut_acts (h : s.sock i = some t) (hl : idles t.state = false) (hrun : (do
      modifySk net.env i (fun t => { t with state := .closed })
      tcpUnhash net.env i
      tcpUnbhash net.env i : Prog Local Unit) s = .ok (u, s')) : Chain R (shown s) (shown s') := by
  obtain ⟨⟨⟩, s1, hset, hrest⟩ := bind_inv hrun
  have h1 := (turn_acts hst .closed h hl rfl rfl hset).1
  exact h1.trans (Does.bind (does_tcpUnhash i) (fun _ => does_tcpUnbhash i) _ _ _ hrest)

lemma checkRst_acts (h : s.sock i = some t) (hl : idles t.state = false)
    (hrun : checkRst net.env i s = .ok (u, s')) : Chain R (shown s) (shown s') := by
  rw [checkRst, bind_run (getSk_run h)] at hrun
  split_ifs at hrun
  · obtain ⟨⟨⟩, s1, hunhash, hrest⟩ := bind_inv hrun
    obtain ⟨h1, t1, ht1, hv⟩ := tcpUnhash_acts (R := R) h hunhash
    exact h1.trans (shut_acts hst ht1 (by rwa [show t1.state = t.state from congrArg View.state hv]) hrest)
  · exact shut_acts hst h hl hrun

lemma checkSyn_acts (h : s.sock i = some t) (hl : idles t.state = false)
    (hrun : checkSyn net.env i seg s = .ok (u, s')) : Chain R (shown s) (shown s') := by
  have hend : ∀ {s1 : Local} {t1 : TcpSock}, s1.sock i = some t1 → idles t1.state = false → (do
      modifySk net.env i (fun t => { t with state := .closed })
      freeSock net.env i : Prog Local Unit) s1 = .ok (u, s') → Chain R (shown s1) (shown s') := by
    intro s1 t1 ht1 hl1 hrun
    obtain ⟨⟨⟩, s2, hset, hfree⟩ := bind_inv hrun
    have h2 := (turn_acts hst .closed ht1 hl1 rfl rfl hset).1
    exact h2.trans (does_freeSock i _ _ _ hfree)
  rw [checkSyn] at hrun
  split_ifs at hrun
  · obtain ⟨⟨⟩, s1, hreset, hrest⟩ := bind_inv hrun
    have hsame := still_tcpSendReset seg _ _ _ hreset
    obtain ⟨t1, ht1, hv⟩ := sock_of_shown (hsame ▸ shown_sock h)
    have hl1 : idles t1.state = false := by rwa [show t1.state = t.state from congrArg View.state hv]
    rw [bind_run (getSk_run ht1)] at hrest
    rw [← hsame]
    split_ifs at hrest
    · obtain ⟨⟨⟩, s2, hunhash, hrest⟩ := bind_inv hrest
      obtain ⟨h2, t2, ht2, hv2⟩ := tcpUnhash_acts (R := R) ht1 hunhash
      exact h2.trans (hend ht2 (by rwa [show t2.state = t1.state from congrArg View.state hv2]) hrest)
    · exact hend ht1 hl1 hrest
  · exact does_pure _ _ _ hrun

lemma tcpSetTimewaitTimer_acts (h : s.sock i = some t) (hl : idles t.state = false)
    (hrun : tcpSetTimewaitTimer net.env i s = .ok (u, s')) : Chain R (shown s) (shown s') := by
  obtain ⟨⟨⟩, s1, hset, hrest⟩ := bind_inv hrun
  have h1 := (turn_acts hst .timeWait h hl rfl rfl hset).1
  have hstill : Still (do
      modifyWorld net.env (fun w => { w with timewait := i :: w.timewait })
      getSock net.env i : Prog Local Unit) :=
    Still.bind (still_modifyWorld fun _ => ⟨rfl, rfl, rfl, rfl, rfl⟩) fun _ => still_getSock i
  rw [hstill _ _ _ hrest]
  exact h1

lemma does_checkAck (j : ℕ) (seg : TcpSegment) : Does R (checkAck net.env j seg) := by
  have hwindow : Still (do
      modifySk net.env j (fun t => tcpUpdateWindow t seg)
      return true : Prog Local Bool) := by
    refine Still.bind (still_modifySk (fun t => ?_) j) fun _ => still_pure _
    rw [tcpUpdateWindow]
    split_ifs <;> rfl
  intro s b s' hrun
  obtain ⟨t, s0, rfl, h, -⟩ := getSk_bind_inv hrun
  obtain ⟨x, hx, hrest⟩ := checkAck_inv h hrun
  have hack : ∀ {y : Prog Local Bool},
      (modifySk net.env j (fun t => { t with sndUna := seg.ack }) >>= fun _ => y) s0 = .ok (b, s') →
      (y (s0.put j { t with sndUna := seg.ack }) = .ok (b, s') →
        Chain R (shown (s0.put j { t with sndUna := seg.ack })) (shown s')) → Chain R (shown s0) (shown s') := by
    intro y hrun hy
    rw [bind_run (modifySk_run _ h)] at hrun
    rw [← show shown (s0.put j { t with sndUna := seg.ack }) = shown s0 from shown_put_same h rfl]
    exact hy hrun
  have ht : (s0.put j { t with sndUna := seg.ack }).sock j = some { t with sndUna := seg.ack } := sock_put
  cases hx with
  | completes hs =>
    obtain ⟨b', s1, hsyn, hlast⟩ := bind_inv hrest
    have hsame := still_tcpSynrecvAck j _ _ _ hsyn
    obtain ⟨t1, ht1, hv⟩ := sock_of_shown (hsame ▸ shown_sock h)
    have hl : idles t1.state = false := by
      rw [show t1.state = t.state from congrArg View.state hv, hs]
      rfl
    rw [← hsame]
    cases b' with
    | false => exact does_pure _ _ _ hlast
    | true =>
      obtain ⟨⟨⟩, s2, hset, hret⟩ := bind_inv hlast
      cases hret
      exact (turn_acts hst .established ht1 hl rfl rfl hset).1
  | outside => exact (Still.bind (still_tcpSendReset seg) fun _ => still_pure _).does _ _ _ hrest
  | forward => exact hack hrest (hwindow.does _ _ _)
  | finWait1 hs =>
    refine hack hrest fun hrun => ?_
    obtain ⟨⟨⟩, s1, hset, hrest⟩ := bind_inv hrun
    have h1 := (turn_acts hst .finWait2 ht (by rw [hs]; rfl) rfl rfl hset).1
    exact h1.trans (hwindow.does _ _ _ hrest)
  | closing hs =>
    refine hack hrest fun hrun => ?_
    obtain ⟨⟨⟩, s1, htimer, hret⟩ := bind_inv hrun
    cases hret
    exact tcpSetTimewaitTimer_acts hst ht (by rw [hs]; rfl) htimer
  | lastAck hs =>
    refine hack hrest fun hrun => ?_
    obtain ⟨⟨⟩, s1, hset, hrest⟩ := bind_inv hrun
    have h1 := (turn_acts hst .closed ht (by rw [hs]; rfl) rfl rfl hset).1
    exact h1.trans (Does.bind (does_tcpUnhash j) (fun _ => Does.bind (does_tcpUnbhash j)
      fun _ => does_pure) _ _ _ hrest)
  | old => exact hwindow.does _ _ _ hrest
  | beyond | other => exact does_pure _ _ _ hrest

lemma does_checkFin (j : ℕ) (seg : TcpSegment) : Does R (checkFin net.env j seg) := by
  have hset : Still (modifySk net.env j (fun t => { t with rcvNxt := seg.seq + 1, ackNow := true })) :=
    still_modifySk (fun _ => by rfl) j
  intro s u s' hrun
  rw [checkFin] at hrun
  split_ifs at hrun
  · obtain ⟨t, s0, rfl, h, hrest⟩ := getSk_bind_inv hrun
    cases hs : t.state <;> simp only [hs] at hrest
    case synRecv | established =>
      obtain ⟨⟨⟩, s1, hturn, hlast⟩ := bind_inv hrest
      have h1 := (turn_acts hst .closeWait h (by simp [hs, idles]) rfl rfl hturn).1
      exact h1.trans (hset.does _ _ _ hlast)
    case finWait1 =>
      obtain ⟨⟨⟩, s1, hturn, hlast⟩ := bind_inv hrest
      have h1 := (turn_acts hst .closing h (by simp [hs, idles]) rfl rfl hturn).1
      exact h1.trans (hset.does _ _ _ hlast)
    case finWait2 =>
      obtain ⟨⟨⟩, s1, hturn, hlast⟩ := bind_inv hrest
      exact (tcpSetTimewaitTimer_acts hst h (by simp [hs, idles]) hturn).trans (hset.does _ _ _ hlast)
    case timeWait =>
      exact Does.bind (still_modifySk (fun _ => by rfl) j).does (fun _ => hset.does) _ _ _ hrest
    all_goals exact hset.does _ _ _ hrest
  · exact does_pure _ _ _ hrun

lemma tcpArrive_acts (h : s.sock i = some t) (hl : idles t.state = false)
    (hrun : tcpArrive net.env pkb seg i s = .ok (u, s')) : Chain R (shown s) (shown s') := by
  have hdrop : ∀ seg, Does R (drop net.env i seg pkb) := fun seg => (still_drop i seg pkb).does
  rw [tcpArrive, bind_run (getSk_run h)] at hrun
  split_ifs at hrun
  · exact Does.bind (still_modifySk (fun _ => by rfl) i).does (fun _ => hdrop seg) _ _ _ hrun
  · exact hdrop seg _ _ _ hrun
  · obtain ⟨⟨⟩, s1, hrst, hrest⟩ := bind_inv hrun
    exact (checkRst_acts hst h hl hrst).trans (hdrop seg _ _ _ hrest)
  · obtain ⟨⟨⟩, s1, hsyn, hrest⟩ := bind_inv hrun
    exact (checkSyn_acts hst h hl hsyn).trans (hdrop seg _ _ _ hrest)
  · obtain ⟨⟨⟩, s1, hsyn, hrest⟩ := bind_inv hrun
    refine (checkSyn_acts hst h hl hsyn).trans ?_
    refine Does.bind (does_checkAck hst i seg) (fun b => ?_) _ _ _ hrest
    split_ifs
    · exact hdrop seg
    · exact Does.bind (still_checkText i seg pkb).does fun seg' =>
        Does.bind (does_checkFin hst i seg') fun _ => hdrop seg'

def Crossing (seg : TcpSegment) : Prop := seg.rst = false ∧ seg.syn = true ∧ seg.ackBit = false

lemma tcpSynsent_acts (h : s.sock i = some t) (hs : t.state = .synSent)
    (hsim : Crossing seg → R (view t) { view t with state := .synRecv })
    (hrun : tcpSynsent net.env pkb seg i s = .ok (u, s')) : Chain R (shown s) (shown s') := by
  have hfree : Does R (net.env.freePkb pkb) := does_pure
  have hl : idles t.state = false := by simp [hs, idles]
  have hsame : shown (s.put i (synsentSyn seg t)) = shown s := shown_put_same h rfl
  rw [tcpSynsent, bind_run (getSk_run h)] at hrun
  split_ifs at hrun with hbad hrst hbit hsyn hnew
  · exact Does.bind (still_tcpSendReset seg).does (fun _ => hfree) _ _ _ hrun
  · obtain ⟨⟨⟩, s1, hset, hrest⟩ := bind_inv hrun
    exact (turn_acts hst .closed h hl rfl rfl hset).1.trans (hfree _ _ _ hrest)
  · exact hfree _ _ _ hrun
  · rw [bind_run (modifySk_run _ h)] at hrun
    obtain ⟨⟨⟩, s1, hset, hrest⟩ := bind_inv hrun
    have h1 := (turn_acts (t := synsentSyn seg t) hst .established sock_put hl rfl rfl hset).1
    rw [hsame] at h1
    exact h1.trans (Does.bind (still_tcpSendAck i _).does (fun _ => Does.bind (still_getSk i).does
      fun _ => Does.bind (still_wakeUp _).does fun _ => hfree) _ _ _ hrest)
  · rw [bind_run (modifySk_run _ h)] at hrun
    obtain ⟨⟨⟩, s1, hset, hrest⟩ := bind_inv hrun
    have hbit : seg.ackBit = false := by
      by_contra hb
      simp only [Bool.not_eq_false] at hb
      simp only [hb, Bool.true_and, Bool.or_eq_true, decide_eq_true_eq, not_or, UInt32.not_le] at hbad
      simp only [synsentSyn, hb, if_true] at hnew
      exact hnew hbad.1
    have h1 := (modifySk_acts sock_put (hsim ⟨eq_false_of_ne_true hrst, hsyn, hbit⟩) hset).1
    rw [hsame] at h1
    exact h1.trans ((still_tcpSendSynack i seg).does _ _ _ hrest)
  · exact hfree _ _ _ hrun

omit hst in
lemma alloc_shown (hrun : modifyWorld net.env (fun w => { w with
      socks := Function.update w.socks i (some t), nextSock := i + 1, tcpId := w.tcpId + 1 }) s = .ok (u, s')) :
    s'.sock i = some t ∧ shown s' = { (shown s).set i (some (view t)) with next := i + 1 } := by
  cases hrun
  have hput : shown (s.put i t) = (shown s).set i (some (view t)) := shown_put s i t
  refine ⟨Function.update_self _ _ _, ?_⟩
  rw [← hput]
  rfl

omit hst in
lemma request_acts {s1 : Local} {c : TcpSock} {r : Option ℕ} (hborn : Born (view c)) (hsyn : c.state = .synRecv)
    (hnew : s1.sock s.tcp.nextSock = some c)
    (hshown : shown s1 = { (shown s).set s.tcp.nextSock (some (view c)) with next := s.tcp.nextSock + 1 })
    (hrun : (do
      if !(← tcpHash net.env s.tcp.nextSock) then
        modifyWorld net.env (fun w => { w with socks := Function.update w.socks s.tcp.nextSock none })
        return none
      else
        getSock net.env j
        modifySk net.env s.tcp.nextSock (fun t => { t with parent := .sock j })
        modifySk net.env j (fun t => { t with listenQueue := s.tcp.nextSock :: t.listenQueue })
        getSock net.env s.tcp.nextSock
        return some s.tcp.nextSock : Prog Local (Option ℕ)) s1 = .ok (r, s')) :
    Chain R (shown s) (shown s') := by
  have halloc : Chain R (shown s) (shown s1) := by
    rw [hshown]
    exact .single (.alloc hborn)
  obtain ⟨b, s2, hhash, hrest⟩ := bind_inv hrun
  rcases tcpHash_acts hnew (by simp [hsyn]) hhash with ⟨rfl, rfl⟩ | ⟨rfl, -, hlinked, t2, ht2, hv2⟩
  · obtain ⟨⟨⟩, s3, hfree, hret⟩ := bind_inv hrest
    cases hret
    cases hfree
    exact halloc.tail (shown_edited s2 _ none false false ▸ .free)
  · obtain ⟨⟨⟩, s3, hget, hrest⟩ := bind_inv hrest
    obtain ⟨⟨⟩, s4, hparent, hrest⟩ := bind_inv hrest
    have hstill : Still (do
        modifySk net.env j (fun t => { t with listenQueue := s.tcp.nextSock :: t.listenQueue })
        getSock net.env s.tcp.nextSock
        return some s.tcp.nextSock : Prog Local (Option ℕ)) :=
      Still.bind (still_modifySk (fun _ => by rfl) j) fun _ =>
        Still.bind (still_getSock _) fun _ => still_pure _
    have hsame := still_getSock j _ _ _ hget
    obtain ⟨t3, ht3, hv3⟩ := sock_of_shown (hsame ▸ shown_sock ht2)
    rw [modifySk_run _ ht3] at hparent
    cases hparent
    rw [hstill _ _ _ hrest, shown_put, hsame, hlinked, hshown,
      show view { t3 with parent := .sock j } = { view c with hashed := true, parent := .sock j } by
        rw [show view { t3 with parent := .sock j } = { view t3 with parent := .sock j } from rfl, hv3, hv2]]
    simp only [Shown.set, Function.update_idem]
    have hact := @Act.request R (shown s) (view c) j hborn hsyn
    have htable : s1.tcp.etable = s.tcp.etable := congrArg Shown.etable hshown
    rw [htable]
    exact .single hact

omit hst in
lemma does_tcpListenChildSock (j : ℕ) (seg : TcpSegment) : Does R (tcpListenChildSock net.env j seg) := by
  intro s new s' hrun
  obtain ⟨w, s0, hget, hrest⟩ := bind_inv hrun
  cases hget
  obtain ⟨⟨⟩, s1, hmod, hrest⟩ := bind_inv hrest
  obtain ⟨hnew, hshown⟩ := alloc_shown hmod
  exact request_acts ⟨rfl, rfl, rfl, rfl, .inr ⟨rfl, rfl⟩⟩ rfl hnew hshown hrest

omit hst in
lemma does_tcpListen (pkb : Pkbuf) (seg : TcpSegment) (j : ℕ) : Does R (tcpListen net.env pkb seg j) := by
  have hfree : Does R (net.env.freePkb pkb) := does_pure
  rw [tcpListen]
  split_ifs
  · exact hfree
  · exact Does.bind (still_tcpSendReset seg).does fun _ => hfree
  · exact hfree
  · refine Does.bind (does_tcpListenChildSock j seg) fun new => ?_
    cases new with
    | none => exact hfree
    | some new =>
      exact Does.bind (still_allocNewIss).does fun _ =>
        Does.bind (still_modifySk (fun _ => by rfl) new).does fun _ =>
          Does.bind (still_tcpSendSynack new seg).does fun _ =>
            Does.bind (still_modifySk (fun _ => by rfl) new).does fun _ => hfree

lemma tcpProcess_acts {id : Option ℕ} (hsim : ∀ i t, id = some i → s.sock i = some t →
      t.state = .synSent → Crossing seg → R (view t) { view t with state := .synRecv })
    (hrun : tcpProcess net.env pkb seg id s = .ok (u, s')) : Chain R (shown s) (shown s') := by
  have hfree : Does R (net.env.freePkb pkb) := does_pure
  cases id with
  | none => exact Does.bind (still_tcpSendReset seg).does (fun _ => hfree) _ _ _ hrun
  | some i =>
    obtain ⟨t, s0, rfl, h, hrest⟩ := getSk_bind_inv hrun
    cases hs : t.state <;> simp only [hs] at hrest
    case closed => exact hfree _ _ _ hrest
    case listen => exact does_tcpListen pkb seg i _ _ _ hrest
    case synSent => exact tcpSynsent_acts hst h hs (hsim i t rfl h hs) hrest
    all_goals exact tcpArrive_acts hst h (by simp [hs, idles]) hrest

lemma tcpRecv_acts (hsim : ∀ i t s1, tcpLookupSock net.env seg.iphdrSrc seg.iphdrDst
      seg.tcphdrSrc seg.tcphdrDst s = .ok (some i, s1) → s1.sock i = some t → t.state = .synSent → Crossing seg →
        R (view t) { view t with state := .synRecv })
    (hrun : tcpRecv net.env pkb seg s = .ok (u, s')) : Chain R (shown s) (shown s') := by
  obtain ⟨sk, s1, hlook, hrest⟩ := bind_inv hrun
  obtain ⟨⟨⟩, s2, hproc, hfree⟩ := bind_inv hrest
  rw [← still_tcpLookupSock _ _ _ _ _ _ _ hlook]
  refine (tcpProcess_acts hst (fun i t hi => hsim i t s1 (hi ▸ hlook)) hproc).trans ?_
  cases sk with
  | none => exact does_pure _ _ _ hfree
  | some i => exact does_freeSock i _ _ _ hfree

end Segment

end Walk

end Tapip.Tcp.Acts
