import Tapip.Tcp.Timer

/-! What `tcp_close` does to a listening sock and to the socks that have it as parent. -/

namespace Tapip.Tcp.CloseListener

open Foundation.Program Connection Timer

variable {r a b : Unit} {s1 s2 s0 : Local} {fuel : ℕ}

variable {net : Net} {s s' : Local} {i c d p : ℕ} {t k u u' : TcpSock}
  {q : List ℕ}

section Loop

def requests (s : Local) (i : ℕ) (q : List ℕ) : List ℕ :=
  q.filter fun c => (s.sock c).any fun u => u.state = .synRecv ∧ u.parent = .sock i

structure Discards (s s' : Local) (c p : ℕ) : Prop where
  apart : ∀ d, d ≠ c → s'.sock d = if d = p then (s.sock d).bind dropRef else s.sock d
  child : ∀ u, s'.sock c = some u → u.parent = .none ∧ u.state = .synRecv

lemma discards {e : Unit} {s3 : Local} (hk : s.sock c = some k) (hst : k.state = .synRecv)
    (hparent : freeSock net.env p s = .ok (a, s1))
    (hset : modifySk net.env c (fun t => { t with parent := .none }) s1 = .ok (b, s2))
    (hunhash : tcpUnhash net.env c s2 = .ok (e, s3))
    (hfree : freeSock net.env c s3 = .ok (r, s')) : Discards s s' c p := by
  obtain ⟨m, hm, rfl⟩ := freeSock_inv hparent
  obtain ⟨k1, hk1, rfl⟩ := modifySk_inv hset
  obtain ⟨k2, hk2, -, rfl⟩ := tcpUnhash_inv hunhash
  obtain ⟨k3, hk3, rfl⟩ := freeSock_inv hfree
  have hstate : k1.state = .synRecv := by
    by_cases hcp : c = p
    · subst hcp
      rw [sock_edited] at hk1
      rw [dropRef_some hk1]
      cases Option.mem_unique hk hm
      exact hst
    · rw [sock_edited_of_ne hcp, hk] at hk1
      rw [← Option.some.inj hk1]
      exact hst
  rw [sock_put] at hk2
  cases hk2
  rw [sock_edited] at hk3
  cases hk3
  refine ⟨fun d hd => ?_, fun u hu => ?_⟩
  · rw [sock_edited_of_ne hd, sock_edited_of_ne hd, sock_put_of_ne hd]
    split_ifs with hdp
    · rw [hdp, sock_edited, hm]
      rfl
    · rw [sock_edited_of_ne hdp]
  · rw [sock_edited] at hu
    rw [dropRef_some hu]
    simp only [setRefcnt, unhashed]
    split_ifs
    · exact ⟨rfl, hstate⟩
    · exact ⟨rfl, hstate⟩

structure Cleared (i : ℕ) (q : List ℕ) (t : TcpSock) (s s' : Local) : Prop where
  sock : s'.sock i = some { setRefcnt (t.sk.refcnt - (requests s i q).length) t with listenQueue := [] }
  nodup : (requests s i q).Nodup
  visited : ∀ d ∈ q, ∃ u, s.sock d = some u ∧ (u.state = .synRecv → ∃ p, u.parent = .sock p)
  others : ∀ d u', d ≠ i → s'.sock d = some u' → u'.parent = .none ∨
    ∃ u, s.sock d = some u ∧ u'.parent = u.parent ∧ ¬(d ∈ q ∧ u.state = .synRecv)

def Persists (s s' : Local) (d : ℕ) : Prop :=
  ∀ u', s'.sock d = some u' → ∃ u, s.sock d = some u ∧ u'.state = u.state ∧ u'.parent = u.parent

lemma requests_congr (h : ∀ d ∈ q, Persists s s' d) (hv : ∀ d ∈ q, ∃ u, s'.sock d = some u) :
    requests s' i q = requests s i q := by
  refine List.filter_congr fun d hd => ?_
  obtain ⟨u', hu'⟩ := hv d hd
  obtain ⟨u, hu, hst, hpar⟩ := h d hd u' hu'
  simp only [hu', hu, Option.any_some, hst, hpar]

lemma cleared_nil (ht : s.sock i = some t) (hq : t.listenQueue = []) : Cleared i t.listenQueue t s s := by
  refine ⟨?_, ?_, ?_, fun d u' _ hu' => .inr ⟨u', hu', rfl, ?_⟩⟩
  · have hlen : (requests s i t.listenQueue).length = 0 := by simp [hq, requests]
    rw [ht, hlen, Nat.cast_zero, sub_zero, ← hq]
    rfl
  · simp [hq, requests]
  · simp [hq]
  · simp [hq]

lemma Cleared.skip (h : Cleared i q { t with listenQueue := q } s s') (hk : s0.sock c = some k)
    (hst : k.state ≠ .synRecv) (hp : ∀ d, Persists s0 s d) : Cleared i (c :: q) t s0 s' := by
  have hreq : requests s0 i (c :: q) = requests s i q := by
    have hq : requests s i q = requests s0 i q :=
      requests_congr (fun d _ => hp d) fun d hd => (h.visited d hd).imp fun _ hu => hu.1
    rw [hq, requests, List.filter_cons_of_neg]
    · rfl
    · simp [hk, hst]
  refine ⟨?_, ?_, fun d hd => ?_, fun d u' hdi hu' => ?_⟩
  · rw [hreq]
    exact h.sock
  · rw [hreq]
    exact h.nodup
  · rcases List.mem_cons.mp hd with rfl | hd
    · exact ⟨k, hk, fun hs => absurd hs hst⟩
    · obtain ⟨u, hu, hpar⟩ := h.visited d hd
      obtain ⟨u0, hu0, hst0, hpar0⟩ := hp d u hu
      exact ⟨u0, hu0, fun hs => hpar0 ▸ hpar (hst0.trans hs)⟩
  · rcases h.others d u' hdi hu' with hnone | ⟨u, hu, hpar, hnot⟩
    · exact .inl hnone
    · obtain ⟨u0, hu0, hst0, hpar0⟩ := hp d u hu
      refine .inr ⟨u0, hu0, hpar.trans hpar0, ?_⟩
      rintro ⟨hd, hs⟩
      rcases List.mem_cons.mp hd with rfl | hd
      · cases Option.mem_unique hk hu0
        exact hst hs
      · exact hnot ⟨hd, hst0.trans hs⟩

lemma Discards.persists (h : Discards s s' c p) (hd : d ≠ c) : Persists s s' d := by
  intro u' hu'
  rw [h.apart d hd] at hu'
  split_ifs at hu'
  · obtain ⟨u, hu, hdrop⟩ := Option.bind_eq_some_iff.mp hu'
    refine ⟨u, hu, ?_⟩
    rw [dropRef_some hdrop]
    exact ⟨rfl, rfl⟩
  · exact ⟨u', hu', rfl, rfl⟩

lemma Persists.trans (h : Persists s s1 d) (h' : Persists s1 s' d) : Persists s s' d := by
  intro u' hu'
  obtain ⟨u1, hu1, hst1, hpar1⟩ := h' u' hu'
  obtain ⟨u, hu, hst, hpar⟩ := h u1 hu1
  exact ⟨u, hu, hst1.trans hst, hpar1.trans hpar⟩

lemma Cleared.drop (h : Cleared i q u s s') (hk : s0.sock c = some k) (hst : k.state = .synRecv)
    (hpar : k.parent = .sock p) (hp : ∀ d, d ≠ c → Persists s0 s d)
    (hchild : ∀ u, s.sock c = some u → u.parent = .none ∧ u.state = .synRecv)
    (hu : u = setRefcnt (t.sk.refcnt - if i = p then 1 else 0) { t with listenQueue := q }) :
    Cleared i (c :: q) t s0 s' := by
  have hcq : c ∉ q := by
    intro hc
    obtain ⟨v, hv, hvpar⟩ := h.visited c hc
    obtain ⟨hnone, hs⟩ := hchild v hv
    obtain ⟨p', hp'⟩ := hvpar hs
    rw [hnone] at hp'
    cases hp'
  have hne : ∀ d ∈ q, d ≠ c := fun d hd he => hcq (he ▸ hd)
  have hq : requests s i q = requests s0 i q :=
    requests_congr (fun d hd => hp d (hne d hd)) fun d hd => (h.visited d hd).imp fun _ hu => hu.1
  have hvisited : ∀ d ∈ c :: q, ∃ u, s0.sock d = some u ∧ (u.state = .synRecv → ∃ p, u.parent = .sock p) := by
    intro d hd
    rcases List.mem_cons.mp hd with rfl | hd
    · exact ⟨k, hk, fun _ => ⟨p, hpar⟩⟩
    · obtain ⟨v, hv, hvpar⟩ := h.visited d hd
      obtain ⟨v0, hv0, hst0, hpar0⟩ := hp d (hne d hd) v hv
      exact ⟨v0, hv0, fun hs => hpar0 ▸ hvpar (hst0.trans hs)⟩
  have hothers : ∀ d u', d ≠ i → s'.sock d = some u' → u'.parent = .none ∨
      ∃ u, s0.sock d = some u ∧ u'.parent = u.parent ∧ ¬(d ∈ c :: q ∧ u.state = .synRecv) := by
    intro d u' hdi hu'
    rcases h.others d u' hdi hu' with hnone | ⟨v, hv, hvpar, hnot⟩
    · exact .inl hnone
    · by_cases hdc : d = c
      · subst hdc
        exact .inl (hvpar.trans (hchild v hv).1)
      · obtain ⟨v0, hv0, hst0, hpar0⟩ := hp d hdc v hv
        refine .inr ⟨v0, hv0, hvpar.trans hpar0, ?_⟩
        rintro ⟨hd, hs⟩
        exact hnot ⟨(List.mem_cons.mp hd).resolve_left hdc, hst0.trans hs⟩
  have hsock := h.sock
  by_cases hip : i = p
  · have hreq : requests s0 i (c :: q) = c :: requests s i q := by
      rw [hq, requests, List.filter_cons_of_pos]
      · rfl
      · simp [hk, hst, hpar, hip]
    refine ⟨?_, ?_, hvisited, hothers⟩
    · rw [hsock, hreq, hu, if_pos hip]
      simp [setRefcnt]
      omega
    · rw [hreq]
      exact List.nodup_cons.mpr ⟨fun hc => hcq (List.mem_of_mem_filter hc), h.nodup⟩
  · have hreq : requests s0 i (c :: q) = requests s i q := by
      rw [hq, requests, List.filter_cons_of_neg]
      · rfl
      · simp [hk, hst, hpar, Ne.symm hip]
    refine ⟨?_, by rw [hreq]; exact h.nodup, hvisited, hothers⟩
    rw [hsock, hreq, hu, if_neg hip]
    simp [setRefcnt]

lemma live_of_clear (hrun : tcpClearListenQueue net.env i fuel s = .ok (r, s'))
    (hl : s'.sock i ≠ none) : ∃ t, s.sock i = some t := by
  cases fuel with
  | zero =>
    cases hrun
    exact Option.ne_none_iff_exists'.mp hl
  | succ fuel =>
    obtain ⟨t, s1, hget, -⟩ := bind_inv hrun
    exact ⟨t, (getSk_inv hget).1⟩

lemma cleared (ht : s.sock i = some t) (hl : t.state = .listen)
    (hf : t.listenQueue.length ≤ fuel) (hrun : tcpClearListenQueue net.env i fuel s = .ok (r, s'))
    (hlive : s'.sock i ≠ none) : Cleared i t.listenQueue t s s' := by
  induction fuel generalizing s t with
  | zero =>
    cases hrun
    exact cleared_nil ht (List.eq_nil_of_length_eq_zero (Nat.le_zero.mp hf))
  | succ fuel ih =>
    rw [tcpClearListenQueue, bind_run (getSk_run ht)] at hrun
    cases hq : t.listenQueue with
    | nil =>
      simp only [hq] at hrun
      cases hrun
      exact hq ▸ cleared_nil ht hq
    | cons c rest =>
      simp only [hq] at hrun
      rw [bind_run (modifySk_run _ ht)] at hrun
      obtain ⟨k, s1, rfl, hk, hrest⟩ := getSk_bind_inv hrun
      have hlen : rest.length ≤ fuel := by
        rw [hq] at hf
        simpa using hf
      have hput : ∀ d, Persists s (s.put i { t with listenQueue := rest }) d := by
        intro d u hu
        by_cases hdi : d = i
        · subst hdi
          rw [sock_put] at hu
          cases hu
          exact ⟨t, ht, rfl, rfl⟩
        · rw [sock_put_of_ne hdi] at hu
          exact ⟨u, hu, rfl, rfl⟩
      by_cases hst : k.state = .synRecv
      · have hci : c ≠ i := by
          rintro rfl
          rw [sock_put] at hk
          cases hk
          simp only [hl, reduceCtorEq] at hst
        have hk0 := hk
        rw [sock_put_of_ne hci] at hk0
        simp only [hst, if_true] at hrest
        cases hpar : k.parent with
        | none | dead =>
          simp only [hpar] at hrest
          obtain ⟨a, s2, hfault, -⟩ := bind_inv hrest
          cases hfault
        | sock p =>
          simp only [hpar] at hrest
          obtain ⟨a, s2, hparent, hrest⟩ := bind_inv hrest
          obtain ⟨b, s3, hset, hrest⟩ := bind_inv hrest
          obtain ⟨e, s4, hunhash, hrest⟩ := bind_inv hrest
          obtain ⟨f, s5, hfree, hloop⟩ := bind_inv hrest
          have hdis := discards hk hst hparent hset hunhash hfree
          obtain ⟨t2, ht2⟩ := live_of_clear hloop hlive
          have heq : t2 = setRefcnt (t.sk.refcnt - if i = p then 1 else 0) { t with listenQueue := rest } := by
            rw [hdis.apart i hci.symm, sock_put] at ht2
            split_ifs at ht2 ⊢ with hip
            · exact dropRef_some ht2
            · rw [← Option.some.inj ht2, sub_zero]
              rfl
          have hih := ih ht2 (by rw [heq]; exact hl) (by rw [heq]; exact hlen) hloop
          have hrest2 : t2.listenQueue = rest := by rw [heq]; rfl
          rw [hrest2] at hih
          exact hih.drop hk0 hst hpar (fun d hd => (hput d).trans (hdis.persists hd)) hdis.child heq
      · simp only [hst, if_false] at hrest
        have hih := ih (t := { t with listenQueue := rest }) sock_put hl hlen hrest
        obtain ⟨k0, hk0, hst0, -⟩ := hput c k hk
        exact hih.skip hk0 (hst0 ▸ hst) hput

end Loop

section Close

structure Leaves (t t' : TcpSock) (returned : ℤ) : Prop where
  listenQueue : t'.listenQueue = []
  acceptQueue : t'.acceptQueue = t.acceptQueue
  parent : t'.parent = t.parent
  refcnt : t'.sk.refcnt = t.sk.refcnt - t.sk.hashed.toInt - t.bhashed.toInt - returned

lemma unhashed_spec (t : TcpSock) : (unhashed t).listenQueue = t.listenQueue ∧
    (unhashed t).acceptQueue = t.acceptQueue ∧ (unhashed t).parent = t.parent ∧ (unhashed t).bhashed = t.bhashed ∧
      (unhashed t).sk.refcnt = t.sk.refcnt - t.sk.hashed.toInt := by
  rw [unhashed]
  cases t.sk.hashed <;> simp [setRefcnt, setHashed]

lemma unbhashed_spec (t : TcpSock) : (unbhashed t).listenQueue = t.listenQueue ∧
    (unbhashed t).acceptQueue = t.acceptQueue ∧ (unbhashed t).parent = t.parent ∧
      (unbhashed t).sk.refcnt = t.sk.refcnt - t.bhashed.toInt := by
  rw [unbhashed]
  cases t.bhashed <;> simp [setRefcnt]

lemma tcpClose_listener (ht : s.sock i = some t) (hl : t.state = .listen) (hrun : tcpClose net.env i s = .ok (r, s')) :
    (∃ t', s'.sock i = some t' ∧ Leaves t t' (requests s i t.listenQueue).length) ∧
      (requests s i t.listenQueue).Nodup ∧
      ∀ d u', d ≠ i → s'.sock d = some u' → u'.parent = .none ∨
        ∃ u, s.sock d = some u ∧ u'.parent = u.parent ∧ ¬(d ∈ t.listenQueue ∧ u.state = .synRecv) := by
  rw [tcpClose, bind_run (getSk_run ht)] at hrun
  simp only [hl] at hrun
  obtain ⟨a, s1, hclear, hrun⟩ := bind_inv hrun
  obtain ⟨b, s2, hunhash, hrun⟩ := bind_inv hrun
  obtain ⟨c, s3, hunbhash, hrun⟩ := bind_inv hrun
  obtain ⟨d, s4, hstate, hrun⟩ := bind_inv hrun
  replace hrun : freeText net i s4 = .ok (r, s') := hrun
  rw [freeText_eq] at hrun
  obtain ⟨t1, ht1, -, rfl⟩ := tcpUnhash_inv hunhash
  obtain ⟨t2, ht2, rfl⟩ := tcpUnbhash_inv hunbhash
  obtain ⟨t3, ht3, rfl⟩ := modifySk_inv hstate
  obtain ⟨t4, ht4, rfl⟩ := modifySk_inv hrun
  have hc := cleared ht hl le_rfl hclear (by simp [ht1])
  refine ⟨⟨_, sock_put, ?_⟩, hc.nodup, fun d u' hd hu' => ?_⟩
  · have h1 := Option.mem_unique ht1 hc.sock
    rw [sock_edited] at ht2 ht3
    cases ht2
    cases leftBhash_some ht3
    rw [sock_put] at ht4
    cases ht4
    obtain ⟨hq1, ha1, hp1, hb1, hr1⟩ := unhashed_spec t1
    obtain ⟨hq2, ha2, hp2, hr2⟩ := unbhashed_spec (unhashed t1)
    refine ⟨(hq2.trans hq1).trans (by rw [h1]), (ha2.trans ha1).trans (by rw [h1]; rfl),
      (hp2.trans hp1).trans (by rw [h1]; rfl), ?_⟩
    have hflags : t1.sk.hashed = t.sk.hashed ∧ t1.bhashed = t.bhashed ∧
        t1.sk.refcnt = t.sk.refcnt - (requests s i t.listenQueue).length := by
      rw [h1]
      exact ⟨rfl, rfl, rfl⟩
    simp only [hr2, hr1, hb1, hflags]
    omega
  · rw [sock_put_of_ne hd, sock_put_of_ne hd, sock_edited_of_ne hd, sock_edited_of_ne hd] at hu'
    exact hc.others d u' hd hu'

def children (s : Local) (i : ℕ) : List ℕ :=
  (List.range s.tcp.nextSock).filter fun c => (s.sock c).any fun u => u.parent = .sock i

def linked (s : Local) (c : ℕ) : Prop :=
  c ∈ s.tcp.etable ∨ c ∈ s.tcp.ltable ∨ c ∈ s.tcp.btable ∨ c ∈ s.tcp.timewait ∨
    ∃ p v, s.sock p = some v ∧ (c ∈ v.listenQueue ∨ c ∈ v.acceptQueue)

structure Released (i : ℕ) (t : TcpSock) (s s' : Local) : Prop where
  orphans : ∀ c u, s'.sock c = some u → linked s' c → u.parent ≠ .sock i
  queues : ∀ t', s'.sock i = some t' → t'.listenQueue = [] ∧ t'.acceptQueue = []
  references : ∀ t', s'.sock i = some t' →
    t'.sk.refcnt = t.sk.refcnt - t.sk.hashed.toInt - t.bhashed.toInt - (children s i).length

def OnlyRequests (s : Local) (i : ℕ) (t : TcpSock) : Prop :=
  t.acceptQueue = [] ∧ ∀ c u, s.sock c = some u → u.parent = .sock i → c ∈ t.listenQueue ∧ u.state = .synRecv

lemma mem_requests : c ∈ requests s i q ↔ c ∈ q ∧ ∃ u, s.sock c = some u ∧ u.state = .synRecv ∧ u.parent = .sock i := by
  simp [requests, Option.any_eq_true]

lemma released_iff (hbelow : ∀ c u, s.sock c = some u → c < s.tcp.nextSock) (ht : s.sock i = some t)
    (hl : t.state = .listen) (hrun : tcpClose net.env i s = .ok (r, s')) :
    Released i t s s' ↔ OnlyRequests s i t := by
  obtain ⟨⟨t', ht', hleaves⟩, hnodup, hothers⟩ := tcpClose_listener ht hl hrun
  have hmem : ∀ c, c ∈ children s i ↔ ∃ u, s.sock c = some u ∧ u.parent = .sock i := by
    intro c
    simp only [children, List.mem_filter, List.mem_range, Option.any_eq_true, decide_eq_true_eq]
    exact ⟨fun h => h.2, fun ⟨u, hu, hp⟩ => ⟨hbelow c u hu, u, hu, hp⟩⟩
  have hsub : requests s i t.listenQueue ⊆ children s i := by
    intro c hc
    obtain ⟨-, u, hu, -, hp⟩ := mem_requests.mp hc
    exact (hmem c).mpr ⟨u, hu, hp⟩
  have hsubperm := List.subperm_of_subset hnodup hsub
  constructor
  · intro h
    refine ⟨?_, fun c u hu hp => ?_⟩
    · rw [← hleaves.acceptQueue]
      exact (h.queues t' ht').2
    · have hlen : (children s i).length ≤ (requests s i t.listenQueue).length := by
        have := h.references t' ht'
        have := hleaves.refcnt
        omega
      have hc := (hsubperm.perm_of_length_le hlen).mem_iff.mpr ((hmem c).mpr ⟨u, hu, hp⟩)
      obtain ⟨hq, u', hu', hst, -⟩ := mem_requests.mp hc
      cases Option.mem_unique hu hu'
      exact ⟨hq, hst⟩
  · rintro ⟨haccept, hall⟩
    have hback : children s i ⊆ requests s i t.listenQueue := by
      intro c hc
      obtain ⟨u, hu, hp⟩ := (hmem c).mp hc
      obtain ⟨hq, hst⟩ := hall c u hu hp
      exact mem_requests.mpr ⟨hq, u, hu, hst, hp⟩
    have hnd : (children s i).Nodup := List.nodup_range.filter _
    have hlen := (List.subperm_of_subset hnd hback).antisymm hsubperm |>.length_eq
    refine ⟨fun c u hu _ hp => ?_, fun t'' ht'' => ?_, fun t'' ht'' => ?_⟩
    · by_cases hci : c = i
      · subst hci
        cases Option.mem_unique ht' hu
        have := (hall c t ht (hleaves.parent ▸ hp)).2
        simp [hl] at this
      · rcases hothers c u hci hu with hnone | ⟨u0, hu0, hpar, hnot⟩
        · simp [hnone] at hp
        · exact hnot (hall c u0 hu0 (hpar ▸ hp))
    · cases Option.mem_unique ht' ht''
      exact ⟨hleaves.listenQueue, hleaves.acceptQueue.trans haccept⟩
    · cases Option.mem_unique ht' ht''
      rw [hleaves.refcnt, hlen]

end Close

end Tapip.Tcp.CloseListener
