import Tapip.Tcp.Reception
import Tapip.Tcp.Timer

/-! What the user calls on a sock and the timer keep the graph of socks sound. -/

namespace Tapip.Tcp.Links

open Lib Foundation.Program Foundation.Hoare Text Connection

variable {m : Node} {Q : Recv → Graph → Prop} {e : Fault} {len : ℤ} {t : TcpSock}

variable {bad : Fault → Prop} {K : Users} {dialing' : ℕ → Prop} {g : Graph} {i : ℕ} {n : Node} {net : Net}

variable (hbad : ∀ e, bad e → e = .useAfterFree)

section Connect

variable (h : Sound K g) (hn : g.node i = some n)

include hbad h hn

lemma sound_tcpConnect (hu : K.used i) (hnd : ¬K.dialing i) (hd : ∀ j, j ≠ i → (dialing' j ↔ K.dialing j))
    (hd' : dialing' i) (hsport : n.sport ≠ 0) (daddr : UInt32) {dport : UInt16} (hdport : dport ≠ 0) :
    Effect seen bad (tcpConnect net.env i daddr dport) g fun ok g' =>
      Sound { K with dialing := if ok then dialing' else K.dialing } g' ∧ ∃ n', g'.node i = some n' := by
  refine effect_getSk hn fun t ht => ?_
  have hs : t.state = n.state := by rw [← ht]; rfl
  have hopen := h.readdress hn n.sport dport (fun _ => rfl) fun hdi => absurd hdi hnd
  rw [hs]
  by_cases hc : n.state = .closed
  · rw [if_neg (by simp [hc])]
    refine Effect.bind (effect_allocNewIss fun iss => ?_)
    refine Effect.bind (effect_modifySk hn { n with state := .synSent, dport } (fun t ht => ?_) ?_)
    · rw [← ht]
      rfl
    refine Effect.bind (effect_tcpHash_connection Graph.node_set_self (by simp) (by simp) ?_ ?_)
    · refine Effect.bind (effect_modifySk Graph.node_set_self { n with dport } (fun t ht => ?_) ?_)
      · simp only [nodeOf, Node.mk.injEq] at ht ⊢
        simp_all
      · rw [Graph.set_set]
        exact effect_pure ⟨hopen, _, Graph.node_set_self⟩
    · have hdial := hopen.dial Graph.node_set_self hu hc hnd hd hd' ⟨hsport, hdport⟩
      refine Effect.bind (effect_touch node_edit_self (fun _ => rfl) ?_)
      refine Effect.bind (effect_tcpSendSyn node_edit_self (not_bad hbad (by simp)) (effect_pure ?_))
      refine ⟨?_, _, node_edit_self⟩
      rw [if_pos rfl]
      simpa [Graph.set, Graph.edit] using hdial
  · rw [if_pos hc]
    exact effect_pure ⟨by simpa using h, n, hn⟩

omit hbad in
lemma sound_tcpConnectWoken (hown : 1 ≤ K.own i) (hu : K.used i) (hdi : K.dialing i) (hd : ∀ j, dialing' j → K.dialing j)
    (hd' : ∀ j, j ≠ i → K.dialing j → dialing' j) (err : Bool) :
    Effect seen bad (tcpConnectWoken net.env i err) g fun _ g' =>
      Sound { K with dialing := dialing' } g' ∧ ∃ n', g'.node i = some n' ∧ n'.state ≠ .listen := by
  have hl : n.state ≠ .listen := by
    intro hst
    have hp := h.hashed.placed i n hn
    rw [hst] at hp
    exact hp.2.2 hdi
  refine Effect.bind (effect_touch hn (fun _ => rfl) ?_)
  refine effect_getSk hn fun t ht => ?_
  have hs : t.state = n.state := by rw [← ht]; rfl
  split_ifs with hc
  · have hoff := h.off hn (.inl hown) true hd hd' (fun hst => absurd hst hl)
      (fun hi => h.handed.idle i hi hdi) fun _ _ => h.timed.adopted i n hn hu
    have hun := @Linked.effect_unlink bad g i n net (h.linked hn (.inl hown))
      (fun _ g' => Effect seen bad (pure false : Prog Local Bool) g' fun _ g' =>
        Sound { K with dialing := dialing' } g' ∧ ∃ n', g'.node i = some n' ∧ n'.state ≠ .listen)
      (effect_pure ⟨hoff, _, node_edit_self, by simp⟩)
    simpa only [bind_assoc] using hun.bind
  · have hest : n.state = .established := by
      rw [← hs]
      simp only [Bool.or_eq_true, decide_eq_true_eq, not_or, not_not] at hc
      exact hc.2
    exact effect_pure ⟨h.answered hn hest hd hd', n, hn, hl⟩

end Connect

section Bind

variable (h : Sound K g) (hn : g.node i = some n)

include hbad h hn

variable (net) in
lemma sound_tcpSetSport (hu : K.used i) (hs : n.sport = 0) (nport defport : UInt16) :
    Effect seen bad (tcpSetSport net.env i nport defport) g fun r g' =>
      Sound K g' ∧ ∃ n', g'.node i = some n' ∧ n'.state = n.state ∧
        n'.dport = n.dport ∧ (r.1 = true → n'.sport ≠ 0) := by
  have hb : n.bhashed = false := by
    by_contra hb
    exact h.bhashed.port i n hn (by simpa using hb) hs
  refine effect_getWorld fun w hw => ?_
  intro s hsn
  cases hp : Ports.choosePort (tcpPortUsed w) w.bfree defport nport with
  | error e =>
    refine Runs.bind (runs_error (show liftExcept (.error e) s = .error e from rfl) (not_bad hbad ?_))
    rintro rfl
    exact Ports.choosePort_ne_useAfterFree _ _ _ hp
  | ok p =>
    obtain ⟨port, defport'⟩ := p
    refine Runs.bind (runs_ok (show liftExcept (.ok (port, defport')) s = .ok ((port, defport'), s) from rfl) ?_)
    refine (?_ : Effect seen bad _ g fun (r : Bool × UInt16) g' => Sound K g' ∧
      ∃ n', g'.node i = some n' ∧ n'.state = n.state ∧ n'.dport = n.dport ∧ (r.1 = true → n'.sport ≠ 0)) s hsn
    dsimp only
    by_cases hz : port = 0
    · rw [if_pos hz]
      exact effect_pure ⟨h, n, hn, rfl, rfl, by simp⟩
    · rw [if_neg hz]
      have hfree : ∀ j m, g.node j = some m → m.bhashed = true → m.sport ≠ port := by
        intro j m hj hm hport
        have hun := Ports.choosePort_unused hp hz
        subst hw
        obtain ⟨t, ht, rfl⟩ := Option.map_eq_some_iff.mp hj
        have hin : j ∈ w.btable := (h.bhashed.flag j _ hj).mp hm
        have hfind : tcpPortUsed w port = true := by
          refine List.any_eq_true.mpr ⟨j, hin, ?_⟩
          rw [ht]
          simpa [nodeOf] using hport
        simp [hfind] at hun
      refine Effect.bind (effect_modifyWorld (fun g => g) (fun _ => rfl) ?_)
      refine Effect.bind (effect_modifySk hn { n with sport := port } (fun t ht => ?_) ?_)
      · rw [← ht]
        rfl
      refine Effect.bind (Effect.bind (effect_modifySk Graph.node_set_self
        { n with sport := port, bhashed := true, refcnt := n.refcnt + 1 } (fun t ht => ?_) ?_))
      · simp only [nodeOf, Node.mk.injEq, setRefcnt] at ht ⊢
        simp_all
      · refine effect_modifyWorld (fun g => { g with btable := i :: g.btable }) (fun _ => rfl)
          (effect_pure ⟨?_, _, Graph.node_set_self, rfl, rfl, fun _ => hz⟩)
        simpa [Graph.set, Graph.edit] using h.bindPort hn hu hb hz hfree

end Bind

section Listen

variable (h : Sound K g) (hn : g.node i = some n)

include h hn

lemma sound_tcpOpsListen (hu : K.used i)
    (hc : n.state = .closed → ¬K.dialing i ∧ (K.listening → n.bhashed = true)) (backlog : ℤ) :
    Effect seen bad (tcpOpsListen net.env i backlog) g fun _ g' =>
      Sound K g' := by
  refine effect_getSk hn fun t ht => ?_
  have hs : t.state = n.state := by rw [← ht]; rfl
  simp only [hs]
  split_ifs with h1 h2 h3 h4
  · exact effect_pure h
  · exact effect_pure h
  · exact effect_pure h
  · have hclosed : n.state = .closed := by
      by_contra hne
      exact h3 ⟨hne, h4⟩
    obtain ⟨hnd, hb⟩ := hc hclosed
    refine Effect.bind (effect_modifySk hn { n with state := .listen } (fun t ht => ?_) ?_)
    · rw [← ht]
      rfl
    refine Effect.bind (effect_tcpHash_listen Graph.node_set_self rfl (effect_pure ?_))
    simpa [Graph.set, Graph.edit] using h.listen hn hu hclosed hnd hb
  · have hlist : n.state = .listen := by simpa using h4
    refine Effect.bind (effect_modifySk hn n (fun t ht => ?_) ?_)
    · simp only [nodeOf] at ht ⊢
      rw [← ht, Node.mk.injEq]
      exact ⟨by rw [← hlist, ← ht], rfl, rfl, rfl, rfl, rfl, rfl, rfl, rfl, rfl⟩
    · rw [set_self hn]
      exact effect_pure h

end Listen

section Accept

variable {c : ℕ} {k : Node} {rest : List ℕ}

lemma detach_eq (hic : i ≠ c) (hq : n.acceptQueue = c :: rest) (hlq : c ∉ n.listenQueue) :
    (((g.set i (some { n with acceptQueue := rest })).set c (some { k with refcnt := k.refcnt - 1 })).set i
      (some { n with acceptQueue := rest, refcnt := n.refcnt - 1 })).set c
      (some { k with parent := .dead, refcnt := k.refcnt - 1 }) = g.detach i c n k .dead := by
  rw [set_set_set_set hic, Graph.detach, hq, List.erase_cons_head, List.erase_of_not_mem hlq]
  rfl

variable (h : Sound K g) (hn : g.node i = some n)

include h hn

lemma accepted_open (hk : g.node c = some k) (hm : c ∈ n.acceptQueue) (hopen : k.state ≠ .closed) :
    connected k.state ∧ 1 < k.refcnt := by
  have hst : connected k.state := by
    rcases ((h.queued.kid c k hk).accepting i n hn hm).2 with hst | hst | hst
    · exact .inl hst
    · exact .inr hst
    · exact absurd hst hopen
  have hplaced := h.hashed.placed c k hk
  have hh : k.hashed = true := by
    apply (h.hashed.flag c k hk).mpr
    rcases hst with hst | hst <;> rw [hst] at hplaced <;> exact .inl hplaced.1
  have hr := h.refcnt_ge hk
  have hlinks : 1 ≤ links g c := links_pos hn (h.counted.below i n hn) (mem_refs_of_queue (.inr hm))
  have ho : 0 ≤ K.own c := h.counted.own_nonneg c
  rw [hh, Bool.toNat_true] at hr
  refine ⟨hst, ?_⟩
  split_ifs at hr <;> omega

lemma sound_accepted (hk : g.node c = some k) (hm : c ∈ n.acceptQueue) (hu : K.used i) (hown : 1 ≤ K.own i)
    (hdial : ∀ j, K.dialing j → K.used j) (hopen : K.exact → connected k.state) (hr : 1 < k.refcnt) :
    Sound { K with
      used := fun j => K.used j ∨ some j = some c
      handed := fun j => K.handed j ∨ K.exact ∧ some j = some c } (g.detach i c n k .dead) ∧
      ∀ j, some j = some c → ¬K.used j := by
  have hpar := ((h.queued.kid c k hk).accepting i n hn hm).1
  have hcu : ¬K.used c := fun huc => h.timed.adopted c k hk huc i hpar
  refine ⟨h.detach hn hk hpar (.inr hm) hown (h.timed.adopted i n hn hu) hr .dead (by simp) (fun j hj => ?_)
    (fun j hj hjc => ?_) fun hj => ⟨.inr rfl, fun hd => hcu (hdial c hd), ?_⟩, ?_⟩
  · simp [hj]
  · rcases hj with hj | ⟨-, hj⟩
    · exact hj
    · exact absurd (Option.some.inj hj) hjc
  · rcases hj with hj | ⟨hex, -⟩
    · exact absurd (h.handed.used c hj) hcu
    · exact hopen hex
  · rintro j hj
    rwa [Option.some.inj hj]

include hbad

variable (net) in
lemma sound_tcpAccept (hu : K.used i) (hown : 1 ≤ K.own i) (hdial : ∀ j, K.dialing j → K.used j)
    (hx : bad .useAfterFree → K.exact) (hc : K.exact → ∀ c rest, n.acceptQueue = c :: rest →
      ∀ k, g.node c = some k → k.state ≠ .closed) :
    Effect seen bad (tcpAccept net.env i) g fun new g' =>
      Sound { K with used := fun j => K.used j ∨ some j = new, handed := fun j => K.handed j ∨ K.exact ∧ some j = new }
        g' ∧ ∀ j, some j = new → ¬K.used j := by
  refine effect_getSk hn fun t ht => ?_
  have hq : t.acceptQueue = n.acceptQueue := by rw [← ht]; rfl
  rw [hq]
  cases haq : n.acceptQueue with
  | nil =>
    refine Effect.bind (effect_getSk hn fun t' _ => ?_)
    cases t'.sk.recvWait with
    | false => exact effect_fault (not_bad hbad (by simp))
    | true =>
      refine effect_pure (Effect.bind (effect_touch hn (fun _ => rfl) (effect_pure ?_)))
      refine ⟨h.retire (by simp) fun j hj => ?_, by simp⟩
      have hj' : K.handed j := by simpa using hj
      exact ⟨hj', .inl (h.handed.used j hj')⟩
  | cons c rest =>
    have hmem : c ∈ n.acceptQueue := by simp [haq]
    obtain ⟨k, hk⟩ := h.counted.links_live (links_pos hn (h.counted.below i n hn) (mem_refs_of_queue (.inr hmem)))
    have hpar := ((h.queued.kid c k hk).accepting i n hn hmem).1
    have hic := ne_of_parent hn hk hpar (h.timed.adopted i n hn hu)
    have hlq : c ∉ n.listenQueue := fun hm => (List.nodup_append'.mp (h.queued.nodup i n hn)).2.2 hm hmem
    have hopen : K.exact → connected k.state ∧ 1 < k.refcnt := fun hex =>
      accepted_open h hn hk hmem (hc hex c rest haq k hk)
    refine Effect.bind (effect_modifySk hn { n with acceptQueue := rest } (fun t ht => ?_) ?_)
    · rw [← ht]
      rfl
    have hk1 : (g.set i (some { n with acceptQueue := rest })).node c = some k := by
      rw [Graph.node_set_of_ne hic.symm, hk]
    refine Effect.bind (effect_freeSock hk1 ?_)
    by_cases hlast : k.refcnt - 1 ≤ 0
    · -- the queue had the last reference
      rw [Graph.release, if_pos hlast]
      refine effect_dead Graph.node_set_self fun hb => ?_
      have := (hopen (hx hb)).2
      omega
    · rw [Graph.release, if_neg hlast]
      have hri := h.counted.parent_held hn hk hpar hown
      refine effect_getSk Graph.node_set_self fun t' ht' => ?_
      have hpt : t'.parent = .sock i := by rw [← hpar]; exact congrArg Node.parent ht'
      rw [hpt]
      refine Effect.bind (effect_freeSock (n := { n with acceptQueue := rest }) ?_ ?_)
      · rw [Graph.node_set_of_ne hic, Graph.node_set_self]
      rw [Graph.release, if_neg (by simp only; omega)]
      refine Effect.bind (effect_modifySk (n := { k with refcnt := k.refcnt - 1 }) ?_
        { k with parent := .dead, refcnt := k.refcnt - 1 } (fun t ht => ?_) (effect_pure ?_))
      · rw [Graph.node_set_of_ne hic.symm, Graph.node_set_self]
      · simp only [nodeOf, Node.mk.injEq] at ht ⊢
        simp_all
      rw [detach_eq hic haq hlq]
      exact sound_accepted h hn hk hmem hu hown hdial (fun hex => (hopen hex).1) (by omega)

end Accept

section Close

structure Closing (own : ℕ → ℤ) (g : Graph) (i : ℕ) (m : Node) : Prop where
  node : g.node i = some m
  state : m.state = .listen
  own : 1 ≤ own i
  parent : ∀ q, m.parent ≠ .sock q

lemma sound_discard {c : ℕ} {k : Node} (h : Sound K g)
    (hc : Closing K.own g i m) (hk : g.node c = some k) (hm : c ∈ m.listenQueue) (hst : k.state = .synRecv)
    (hown : K.own c = 0) :
    Sound K
        { (g.set i (some { m with listenQueue := m.listenQueue.erase c, refcnt := m.refcnt - 1 })).set c none with
          etable := g.etable.erase c, ltable := g.ltable.erase c } ∧ k.refcnt = 2 ∧ k.hashed = true ∧
      k.parent = .sock i ∧ i ≠ c ∧ 2 ≤ m.refcnt := by
  have hkid := h.queued.kid c k hk
  have hpar := (hkid.listening i m hc.node hm).1
  have hr : k.refcnt = 2 := by
    have := (hkid.embryo i hpar hst).1
    omega
  have hpl := h.hashed.placed c k hk
  rw [hst] at hpl
  have hh : k.hashed = true := (h.hashed.flag c k hk).mpr (.inl hpl.1)
  have hic := ne_of_parent hc.node hk hpar hc.parent
  have hnotA : c ∉ m.acceptQueue :=
    fun ha => (List.nodup_append'.mp (h.queued.nodup i m hc.node)).2.2 hm ha
  have hrm := h.counted.parent_held hc.node hk hpar hc.own
  refine ⟨?_, hr, hh, hpar, hic, hrm⟩
  have hnh : ¬K.handed c := fun hh => absurd (h.handed.live hk hh) (by simp [connected, hst])
  have h1 := h.detach hc.node hk hpar (.inl hm) hc.own hc.parent (by omega) .none (by simp)
    (fun _ _ => Iff.rfl) (fun _ hj _ => hj) fun hj => absurd hj hnh
  have hn1 : (g.detach i c m k .none).node c = some { k with parent := .none, refcnt := k.refcnt - 1 } :=
    both_node_self hic
  have h2 := h1.grab hn1
  have hown2 : 1 ≤ (K.hold c 1).own c := h.one_le_hold
  have h3 := h2.off Graph.node_set_self (.inl hown2) false (fun _ hd => hd) (fun _ _ hd => hd)
    (by simp [hst]) hnh (by simp)
  have h4 : Sound ((K.hold c 1).hold c (-1)) _ := h3.release node_edit_self hown2
  rw [K.hold_back] at h4
  convert h4 using 1
  simp [Graph.release, Graph.off, Graph.detach, Graph.both, Graph.edit, Graph.set, hr, hh,
    List.erase_of_not_mem hnotA, Function.update_comm hic]

lemma sound_tcpClearListenQueue (h : Sound K g) (hc : Closing K.own g i m) (hown : ∀ j, j ≠ i → ¬K.used j → K.own j = 0)
    (hreq : K.exact → ∀ c ∈ m.listenQueue, ∀ k, g.node c = some k → k.state = .synRecv) {fuel : ℕ}
    (hf : m.listenQueue.length ≤ fuel) :
    Effect seen bad (tcpClearListenQueue net.env i fuel) g fun _ g' =>
      Sound K g' ∧ ∃ m', Closing K.own g' i m' ∧ m'.listenQueue = [] := by
  induction fuel generalizing g m with
  | zero =>
    exact effect_pure ⟨h, m, hc, List.eq_nil_of_length_eq_zero (Nat.le_zero.mp hf)⟩
  | succ fuel ih =>
    refine effect_getSk hc.node fun t ht => ?_
    have hq : t.listenQueue = m.listenQueue := by rw [← ht]; rfl
    rw [hq]
    cases hlq : m.listenQueue with
    | nil => exact effect_pure ⟨h, m, hc, hlq⟩
    | cons c rest =>
      have hmem : c ∈ m.listenQueue := by simp [hlq]
      obtain ⟨hnotin, hrestnd⟩ : c ∉ rest ∧ rest.Nodup := by
        have hnd := (List.nodup_append'.mp (h.queued.nodup i m hc.node)).1
        rw [hlq] at hnd
        exact List.nodup_cons.mp hnd
      obtain ⟨k, hk⟩ := h.counted.links_live
        (links_pos hc.node (h.counted.below i m hc.node) (mem_refs_of_queue (.inl hmem)))
      have hlen : rest.length ≤ fuel := by
        rw [hlq] at hf
        simpa using hf
      refine Effect.bind (effect_modifySk hc.node { m with listenQueue := rest } (fun t ht => ?_) ?_)
      · rw [← ht]
        rfl
      have hpar := ((h.queued.kid c k hk).listening i m hc.node hmem).1
      have hic := ne_of_parent hc.node hk hpar hc.parent
      have hk1 : (g.set i (some { m with listenQueue := rest })).node c = some k := by
        rw [Graph.node_set_of_ne hic.symm, hk]
      refine effect_getSk hk1 fun t' ht' => ?_
      have hst' : t'.state = k.state := by rw [← ht']; rfl
      have hpar' : t'.parent = .sock i := by rw [← hpar, ← ht']; rfl
      simp only [hst', hpar']
      split_ifs with hsyn
      · have hun : ¬K.used c := fun hu => h.timed.adopted c k hk hu i hpar
        obtain ⟨hs, hr, hh, -, -, hrm⟩ := sound_discard h hc hk hmem hsyn (hown c hic.symm hun)
        refine Effect.bind (effect_freeSock Graph.node_set_self ?_)
        rw [Graph.release, if_neg (by simp only; omega)]
        refine Effect.bind (effect_modifySk (n := k) ?_ { k with parent := .none } (fun t ht => ?_) ?_)
        · rw [Graph.node_set_of_ne hic.symm, hk1]
        · rw [← ht]
          rfl
        have hpl := h.hashed.placed c k hk
        rw [hsyn] at hpl
        refine Effect.bind (effect_tcpUnhash Graph.node_set_self (fun _ => by simp only; omega)
          (fun hl => absurd hl hpl.2) (by simp [hh]) ?_)
        refine Effect.bind (effect_freeSock node_edit_self ?_)
        generalize hg' : Graph.release _ c _ = g'
        have heq : g' = { (g.set i (some { m with
            listenQueue := m.listenQueue.erase c, refcnt := m.refcnt - 1 })).set c none with
            etable := g.etable.erase c, ltable := g.ltable.erase c } := by
          subst hg'
          simp [Graph.release, Graph.unhash, Graph.edit, Graph.set, hr, hh, hlq]
        rw [← heq] at hs
        refine ih hs (m := { m with listenQueue := rest, refcnt := m.refcnt - 1 }) ?_ ?_ hlen
        · refine ⟨?_, hc.state, hc.own, hc.parent⟩
          rw [heq]
          simp [Graph.set, hic, hlq]
        · intro hex d hd l hl
          have hdc : d ≠ c := by
            rintro rfl
            exact hnotin hd
          have hdi : d ≠ i := by
            rintro rfl
            have := ((h.queued.kid d m hc.node).listening d m hc.node (by simp [hlq, hd])).1
            exact hc.parent _ this
          apply hreq hex d (by simp [hlq, hd])
          rw [heq] at hl
          simpa [Graph.set, hdc, hdi] using hl
      · have hnex : ¬K.exact := fun hex => hsyn (hreq hex c hmem k hk)
        have hs := h.skip hc.node hk hnex hmem hsyn hc.parent
        have herase : m.listenQueue.erase c = rest := by simp [hlq]
        rw [herase] at hs
        exact ih hs ⟨Graph.node_set_self, hc.state, hc.own, hc.parent⟩ (fun hex => absurd hex hnex) hlen

lemma sound_freeText (h : Sound K g) (hn : g.node i = some n) :
    Effect seen bad (freeText net i) g fun _ => Standing K i := by
  rw [freeText_eq]
  exact effect_touch hn (fun _ => rfl) ⟨h, n, hn⟩

lemma sound_closeListener (h : Sound K g) (hn : g.node i = some n)
    (hc : n.state = .listen) (hh : ¬K.handed i) (hi : 1 ≤ K.own i) (hpar : ∀ q, n.parent ≠ .sock q)
    (hown : ∀ j, j ≠ i → ¬K.used j → K.own j = 0)
    (hreq : K.exact → ∀ c ∈ n.listenQueue, ∀ k, g.node c = some k → k.state = .synRecv) :
    Effect seen bad (tcpClose net.env i) g fun _ => Standing K i := by
  refine effect_getSk hn fun t ht => ?_
  have hs : t.state = .listen := by rw [← hc, ← ht]; rfl
  have hq : t.listenQueue = n.listenQueue := by rw [← ht]; rfl
  rw [hs]
  have hclear : Effect seen bad (tcpClearListenQueue net.env i _) g _ := sound_tcpClearListenQueue h ⟨hn, hc, hi, hpar⟩ hown hreq
    (le_of_eq (congrArg List.length hq.symm))
  refine Effect.bind (hclear.mono fun _ g' hg => ?_)
  obtain ⟨h', m', hm', hnil⟩ := hg
  have hoff := h'.off hm'.node (.inl hm'.own) true (fun _ hd => hd) (fun _ _ hd => hd) (fun _ => hnil) hh
    fun _ _ => hm'.parent
  have hun := @Linked.effect_unlink bad g' i m' net (h'.linked hm'.node (.inl hm'.own))
    (fun _ g' => Effect seen bad (freeText net i) g' fun _ => Standing K i)
    (sound_freeText hoff node_edit_self)
  simpa only [bind_assoc] using hun.bind

include hbad

lemma sound_tcpClose (h : Sound K g) (hn : g.node i = some n)
    (hu : ¬K.used i) (hi : 1 ≤ K.own i) (hpar : ∀ q, n.parent ≠ .sock q)
    (hown : ∀ j, j ≠ i → ¬K.used j → K.own j = 0)
    (hreq : K.exact → n.state = .listen → ∀ c ∈ n.listenQueue, ∀ k, g.node c = some k → k.state = .synRecv) :
    Effect seen bad (tcpClose net.env i) g fun _ => Standing K i := by
  have hfin : ∀ {a b : TcpState}, n.state = a → Turn a b →
      Effect seen bad (sendFin net.env i b >>= fun _ => freeText net i) g fun _ => Standing K i := by
    intro a b ha ht
    have hsend : Effect seen bad (sendFin net.env i b) g fun _ => Standing K i := by
      refine Effect.bind (effect_modifySk hn { n with state := b } (fun t ht => ?_) ?_)
      · rw [← ht]
        rfl
      refine Effect.bind (effect_tcpSendFin Graph.node_set_self (not_bad hbad (by simp)) ?_)
      exact effect_touch Graph.node_set_self (fun _ => rfl)
        ⟨h.turn hn ha ht fun _ => ⟨hu, hpar⟩, _, Graph.node_set_self⟩
    exact Effect.bind (hsend.mono fun _ _ ⟨h', _, hn'⟩ => sound_freeText h' hn')
  by_cases hc : n.state = .listen
  · exact sound_closeListener h hn hc (fun hh => hu (h.handed.used i hh)) hi hpar hown fun hex => hreq hex hc
  refine effect_getSk hn fun t ht => ?_
  have hs : t.state = n.state := by rw [← ht]; rfl
  rw [hs]
  cases hst : n.state with
  | listen => exact absurd hst hc
  | established => exact hfin hst .fin
  | closeWait => exact hfin hst .lastFin
  | _ => exact sound_freeText h hn

end Close

section Text

variable (hn : g.node i = some n)

include hbad hn

lemma effect_tcpSendBuf {Q : ℤ → Graph → Prop} (buf : List UInt8) (len : ℤ) (hQ : ∀ r, Q r g) :
    Effect seen bad (tcpSendBuf net.env i buf len) g Q := by
  refine effect_getSk hn fun t _ => ?_
  split_ifs
  · exact effect_tcpSendText hn (not_bad hbad (by simp)) (not_bad hbad (by simp))
      (not_bad hbad (by simp)) buf len hQ
  · exact effect_pure (hQ _)

omit hbad hn in
lemma readLoop_ne (he : e ≠ .hang) (fuel : ℕ) (len : ℤ) (c : Cbuf) : readLoop fuel len c ≠ .error e := by
  induction fuel generalizing len c with
  | zero =>
    rw [readLoop]
    split_ifs
    · simpa using he.symm
    · simp
  | succ fuel ih =>
    rw [readLoop]
    split_ifs
    · exact bind_ne_error (ih _ _) fun _ => by simp
    · simp

omit hbad hn in
lemma tcpReadBuf_ne (he : e ≠ .hang) (t : TcpSock) (len : ℤ) : tcpReadBuf t len ≠ .error e := by
  refine bind_ne_error ?_ fun _ => by simp
  simp only [readCbuf]
  split
  · simp
  · refine bind_ne_error (readLoop_ne he _ _ _) fun p => ?_
    split_ifs <;> simp

lemma effect_recvGoOn {loop : ℤ → Prog Local Recv}
    (hloop : ∀ rlen, Effect seen bad (loop rlen) g Q) (hQ : ∀ r, Q r g) (rlen : ℤ) :
    Effect seen bad (recvGoOn net.env i len loop rlen) g Q := by
  refine effect_getSk hn fun t _ => ?_
  split_ifs
  · exact effect_pure (hQ _)
  · exact effect_fault (not_bad hbad (by simp))
  · exact Effect.bind (effect_touch hn (fun _ => rfl) (effect_pure (hQ _)))
  · exact hloop rlen

lemma effect_recvLoop (hQ : ∀ r, Q r g) (fuel : ℕ) (rlen : ℤ) :
    Effect seen bad (recvLoop net.env i len fuel rlen) g Q := by
  induction fuel generalizing rlen with
  | zero =>
    rw [recvLoop]
    split_ifs
    · exact effect_fault (not_bad hbad (by simp))
    · exact effect_pure (hQ _)
  | succ fuel ih =>
    rw [recvLoop]
    split_ifs
    · refine effect_getSk hn fun t ht => ?_
      intro s hs
      cases hr : tcpReadBuf t (len - rlen) with
      | error e =>
        refine Runs.bind (runs_error (show liftExcept (.error e) s = .error e from rfl) (not_bad hbad ?_))
        rintro rfl
        exact tcpReadBuf_ne (by simp) t _ hr
      | ok p =>
        refine Runs.bind (runs_ok (show liftExcept (.ok p) s = .ok (p, s) from rfl) ?_)
        have hnode : nodeOf p.2 = n := by
          obtain ⟨q, -, hq⟩ := bind_eq_ok.mp hr
          cases hq
          exact ht
        refine Effect.bind (effect_modifySk hn n (fun _ _ => hnode) ?_) s hs
        rw [set_self hn]
        exact effect_recvGoOn hbad hn (fun rlen => ih rlen) hQ _
    · exact effect_pure (hQ _)

lemma effect_tcpRecvBuf (len : ℤ) (hQ : ∀ r, Q r g) : Effect seen bad (tcpRecvBuf net.env i len) g Q := by
  refine effect_getSk hn fun t _ => ?_
  split_ifs
  · exact effect_recvLoop hbad hn hQ _ _
  · exact effect_pure (hQ _)

lemma effect_tcpRecvBufWoken (len rlen : ℤ) (err : Bool) (hQ : ∀ r, Q r g) :
    Effect seen bad (tcpRecvBufWoken net.env i len rlen err) g Q := by
  cases err with
  | true => exact effect_pure (hQ _)
  | false => exact effect_recvGoOn hbad hn (fun rlen => effect_recvLoop hbad hn hQ _ rlen) hQ rlen

end Text

section Tick

open Timer

variable {delta : ℤ} {s : Local} {w : List ℕ}

abbrev seenWith (s : Local) (w : List ℕ) : Graph := { seen s with timewait := w }

lemma held_of_linked (hl : Linked g i (nodeOf t)) : Held t := by
  have hheld := hl.held
  simp only [nodeOf] at hheld
  simp only [Held, tableRefs]
  by_cases hp : t.parent = .none <;> cases hb : t.bhashed <;> cases hh : t.sk.hashed <;>
    simp [hp, hb, hh] at hheld ⊢ <;> omega

lemma without_eq_erase {off : Bool} {table : List ℕ} (hm : off = false → i ∉ table) :
    without i off table = table.erase i := by
  cases off with
  | true => rfl
  | false => exact (List.erase_of_not_mem (hm rfl)).symm

def expired (t : TcpSock) : Node :=
  { nodeOf t with
    state := .closed, hashed := false, bhashed := t.bhashed && !decide (t.parent = .none)
    refcnt := t.sk.refcnt - t.sk.hashed.toNat - (t.bhashed && decide (t.parent = .none)).toNat }

lemma nodeOf_ended (t : TcpSock) : (ended (elapse delta t)).map nodeOf =
    if (expired t).refcnt - 1 ≤ 0 then none else some { expired t with refcnt := (expired t).refcnt - 1 } := by
  by_cases hp : t.parent = .none <;> cases hb : t.bhashed <;> cases hh : t.sk.hashed <;>
    simp [ended, dropRef, unhashed, unbhashed, elapse, expired, nodeOf, hp, hb, hh, setRefcnt, setHashed,
      apply_ite (Option.map nodeOf)]

lemma seen_expired (ht : s.sock i = some t) (hl : Linked (seenWith s w) i (nodeOf t)) (hlive : ¬delta < timeout t) :
    seenWith (ticked delta s i) (w.erase i) =
      Graph.release { (seenWith s w).off i (nodeOf t) (decide (t.parent = .none)) with
        timewait := w.erase i } i (expired t) := by
  have hf : t.sk.hashed = true ↔ i ∈ s.tcp.etable ∨ i ∈ s.tcp.ltable := hl.hashed
  have hfb : t.bhashed = true ↔ i ∈ s.tcp.btable := hl.bhashed
  have he : (if t.sk.hashed then unlinked i s.tcp.ltable s.tcp.etable else s.tcp.etable) = s.tcp.etable.erase i := by
    rw [unlinked_eq_erase (show i ∈ s.tcp.ltable → i ∉ s.tcp.etable from hl.apart)]
    exact without_eq_erase fun hh hm => by simp [hf.mpr (.inl hm)] at hh
  have hlt : without i t.sk.hashed s.tcp.ltable = s.tcp.ltable.erase i :=
    without_eq_erase fun hh hm => by simp [hf.mpr (.inr hm)] at hh
  have hb : without i (bound t) s.tcp.btable =
      if decide (t.parent = .none) = true then s.tcp.btable.erase i else s.tcp.btable := by
    by_cases hp : t.parent = .none
    · simp only [hp, bound, decide_true, Bool.true_and, if_true]
      exact without_eq_erase fun hh hm => by simp [hfb.mpr hm] at hh
    · simp [hp, bound, without]
  have htick : ticked delta s i = edited s i (ended (elapse delta t)) (bound t) t.sk.hashed := by
    simp [ticked, ht, hlive]
  rw [htick]
  simp only [seenWith, seen, graphOf, edited, he, hlt, hb, Graph.release, Graph.off, Graph.edit, Graph.set,
    Graph.mk.injEq, and_true]
  funext j
  by_cases hj : j = i
  · subst hj
    simp only [Function.update_self]
    exact nodeOf_ended t
  · simp [hj]

variable (delta) in
lemma sound_ticked (h : Sound K (seenWith s w)) (hi : i ∈ w) : Sound K
      (seenWith (ticked delta s i) (if survives s delta i then w else w.erase i)) := by
  obtain ⟨n, hn⟩ := h.counted.listed_live (i := i) (.inr (.inr (.inr hi)))
  obtain ⟨t, ht, rfl⟩ := Option.map_eq_some_iff.mp hn
  have hsock : s.sock i = some t := ht
  by_cases hlive : delta < timeout t
  · have hsurv : survives s delta i = true := by simp [survives, hsock, hlive]
    have hseen : seen (ticked delta s i) = seen s := by
      rw [ticked, hsock]
      simp only [hlive, if_true]
      have hput := graphOf_update (i := i) s.tcp (some (elapse delta t))
      exact hput.trans (set_self hn)
    rw [if_pos hsurv, seenWith, hseen]
    exact h
  · have hsurv : ¬survives s delta i = true := by simp [survives, hsock, hlive]
    have hlink := h.linked hn (.inr hi)
    rw [if_neg hsurv, seen_expired hsock hlink hlive]
    have hl : (nodeOf t).state = .listen → (nodeOf t).listenQueue = [] := by
      intro hst
      have hw := h.timed.state i _ hn hi
      rw [hst] at hw
      simp [waits] at hw
    have hoff := h.off hn (.inr hi) (decide (t.parent = .none)) (fun _ hd => hd) (fun _ _ hd => hd) hl
      (fun hh => (h.timed.settled i _ hn (.inr hi)).1 (h.handed.used i hh))
      fun _ _ => (h.timed.settled i _ hn (.inr hi)).2
    have hun := hoff.untime node_edit_self hi
    have hrel : Sound ((K.hold i 1).hold i (-1)) _ := hun.release node_edit_self h.one_le_hold
    rwa [K.hold_back] at hrel

variable (delta) in
lemma sound_foldl_ticked {todo : List ℕ} (h : Sound K (seenWith s w)) (hnd : todo.Nodup) (hw : ∀ t ∈ todo, t ∈ w) :
    Sound K (seenWith (todo.foldl (ticked delta) s)
      (w.diff (todo.filter fun t => !survives s delta t))) := by
  induction todo generalizing s w with
  | nil => simpa using h
  | cons t todo ih =>
    obtain ⟨hnt, hnd⟩ := List.nodup_cons.mp hnd
    have hne : ∀ u ∈ todo, u ≠ t := by
      rintro u hu rfl
      exact hnt hu
    have hstep := sound_ticked delta h (hw t (by simp))
    have hlater : todo.filter (fun u => !survives (ticked delta s t) delta u) =
        todo.filter fun u => !survives s delta u := by
      apply List.filter_congr
      intro u hu
      simp only [survives, sock_ticked_of_ne (hne u hu)]
    rw [List.foldl_cons]
    cases hs : survives s delta t with
    | true =>
      rw [hs, if_pos rfl] at hstep
      have hrest := ih hstep hnd fun u hu => hw u (by simp [hu])
      rw [hlater] at hrest
      simpa [List.filter_cons, hs] using hrest
    | false =>
      rw [hs, if_neg (by simp)] at hstep
      have hrest := ih hstep hnd fun u hu => (List.mem_erase_of_ne (hne u hu)).mpr (hw u (by simp [hu]))
      rw [hlater] at hrest
      simpa [List.filter_cons, hs] using hrest

theorem sound_tcpTimewaitTimer (h : Sound K (seen s)) (hex : K.exact → Apart (survives s delta) s.tcp.timewait) :
    Runs bad (tcpTimewaitTimer net.env delta) s fun _ s' =>
      Sound K (seen s') := by
  have hnd : s.tcp.timewait.Nodup := h.timed.nodup
  have hheld : ∀ t ∈ s.tcp.timewait, ∃ tsk, s.sock t = some tsk ∧ Held tsk := by
    intro t ht
    obtain ⟨n, hn⟩ := h.counted.listed_live (i := t) (.inr (.inr (.inr ht)))
    obtain ⟨tsk, htsk, rfl⟩ := Option.map_eq_some_iff.mp hn
    exact ⟨tsk, htsk, held_of_linked (h.linked hn (.inr ht))⟩
  refine runs_ok (tcpTimewaitTimer_run hnd hheld) ?_
  have hfold := sound_foldl_ticked delta h hnd fun t ht => ht
  have hdiff : s.tcp.timewait.diff (s.tcp.timewait.filter fun t => !survives s delta t) =
      s.tcp.timewait.filter (survives s delta) := by
    rw [hnd.sdiff_eq_filter]
    apply List.filter_congr
    intro t ht
    cases hs : survives s delta t <;> simp [ht, hs]
  rw [hdiff] at hfold
  by_cases he : K.exact
  · have hreach := (reachable_eq_filter_iff true _).mpr ⟨hex he, by simp⟩
    rw [← hreach] at hfold
    exact hfold
  · exact hfold.forget he (reachable_sublist _ _)

end Tick

end Tapip.Tcp.Links
