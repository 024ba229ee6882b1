import Tapip.Sockets.Invariants

/-! The accept queue of a listening sock: handshakes that complete and calls of `tcp_accept`
(include/tcp.h, tcp/tcp_state.c, tcp/tcp_sock.c). -/

namespace Tapip.Sockets.Backlog

open Foundation.Program Tcp Tcp.Connection List

def queueing (m : TcpSock) : TcpState × ℤ × ℤ × List ℕ :=
  (m.state, m.backlog, m.acceptBacklog, m.acceptQueue)

structure Aside (p : ℕ) (s s' : Local) : Prop where
  listener : ∀ m', s'.sock p = some m' → ∃ m, s.sock p = some m ∧ Same queueing m m'
  queued : ∀ m, s.sock p = some m → ∀ c ∈ m.acceptQueue, ∀ t', s'.sock c = some t' → t'.state = .synRecv →
    ∃ t, s.sock c = some t ∧ t.state = .synRecv

/-- A listener from `tcp_listen` on. The first list has the children whose handshakes have completed,
the second one those that `tcp_accept` has returned; where a handshake completes, `ok` holds of the
listener. -/
inductive Run (net : Net) (p : ℕ) (ok : TcpSock → Prop) : Local → List ℕ → List ℕ → Prop
  | start {s : Local} {m : TcpSock} : s.sock p = some m → 0 ≤ m.backlog → m.acceptBacklog = 0 →
      m.acceptQueue = [] → Run net p ok s [] []
  | complete {s s' : Local} {done out : List ℕ} {c : ℕ} {t m : TcpSock} {seg : TcpSegment} :
      Run net p ok s done out → s.sock c = some t → t.state = .synRecv → t.parent = .sock p →
      s.sock p = some m → ok m → checkAck net.env c seg s = .ok (true, s') →
      Run net p ok s' (done ++ [c]) out
  | accept {s s' : Local} {done out : List ℕ} {c : ℕ} : Run net p ok s done out →
      tcpAccept net.env p s = .ok (some c, s') → Run net p ok s' done (out ++ [c])
  | other {s s' : Local} {done out : List ℕ} : Run net p ok s done out → Aside p s s' →
      Run net p ok s' done out

section Steps

variable {net : Net} {p c : ℕ} {s s' : Local} {t m : TcpSock} {seg : TcpSegment}

lemma checkAck_completes (hc : s.sock c = some t) (hst : t.state = .synRecv) (hp : t.parent = .sock p)
    (hm : s.sock p = some m) (hrun : checkAck net.env c seg s = .ok (true, s')) :
    m.state = .listen ∧ p ≠ c ∧
      s'.sock p = some { m with listenQueue := m.listenQueue.erase c, acceptQueue := c :: m.acceptQueue.erase c } ∧
      (∀ t', s'.sock c = some t' → t'.state = .established) ∧ ∀ j, j ≠ p → j ≠ c → s'.sock j = s.sock j := by
  rw [checkAck, bind_run (getSk_run hc)] at hrun
  simp only [hst] at hrun
  split_ifs at hrun with hack
  swap
  · obtain ⟨⟨⟩, s1, -, hret⟩ := bind_inv hrun
    simp at hret
  obtain ⟨b, s1, hsyn, hrest⟩ := bind_inv hrun
  cases b with
  | false => simp at hrest
  | true =>
    rw [tcpSynrecvAck, bind_run (getSk_run hc)] at hsyn
    simp only [hp] at hsyn
    rw [bind_run (getSk_run hm)] at hsyn
    split_ifs at hsyn with hl hfull
    · simp at hsyn
    · simp at hsyn
    have hl' : m.state = .listen := not_not.mp hl
    have hpc : p ≠ c := by
      rintro rfl
      cases Option.mem_unique hm hc
      simp [hst] at hl'
    rw [bind_run (modifySk_run _ hm)] at hsyn
    set m' : TcpSock :=
      { m with listenQueue := m.listenQueue.erase c, acceptQueue := c :: m.acceptQueue.erase c } with hm'
    have hc1 : (s.put p m').sock c = some t := (sock_put_of_ne hpc.symm m').trans hc
    rw [bind_run (modifySk_run _ hc1)] at hsyn
    have hp1 : ∀ u, ((s.put p m').put c u).sock p = some m' := fun u =>
      (sock_put_of_ne hpc u).trans sock_put
    rw [bind_run (getSk_run (hp1 _))] at hsyn
    obtain ⟨⟨⟩, s2, hwake, hret⟩ := bind_inv hsyn
    rw [wakeUp] at hwake
    split_ifs at hwake
    · cases hwake
      cases hret
      rw [if_pos rfl, bind_run (modifySk_run _ sock_put)] at hrest
      cases hrest
      refine ⟨hl', hpc, ?_, fun t' ht' => ?_, fun j hjp hjc => ?_⟩
      · rw [put_put]
        exact hp1 _
      · rw [sock_put] at ht'
        cases ht'
        rfl
      · rw [put_put, sock_put_of_ne hjc, sock_put_of_ne hjp]
    · simp [fault] at hwake

lemma tcpAccept_live {r : Option ℕ} (hrun : tcpAccept net.env p s = .ok (r, s')) : ∃ m, s.sock p = some m := by
  obtain ⟨m, s1, hget, -⟩ := bind_inv hrun
  exact ⟨m, (getSk_inv hget).1⟩

lemma tcpAccept_takes (hm : s.sock p = some m) (hrun : tcpAccept net.env p s = .ok (some c, s')) :
    ∃ rest, m.acceptQueue = c :: rest ∧ (∀ m', s'.sock p = some m' →
        Same queueing { m with acceptQueue := rest, acceptBacklog := m.acceptBacklog - 1 } m') ∧
      ∀ j t', s'.sock j = some t' → ∃ t, s.sock j = some t ∧ t'.state = t.state := by
  rw [tcpAccept, bind_run (getSk_run hm)] at hrun
  cases hq : m.acceptQueue with
  | nil =>
    simp only [hq] at hrun
    obtain ⟨⟨⟩, s1, -, hrun⟩ := bind_inv hrun
    obtain ⟨⟨⟩, s2, -, hrun⟩ := bind_inv hrun
    simp at hrun
  | cons new rest =>
    simp only [hq] at hrun
    rw [bind_run (modifySk_run _ hm)] at hrun
    set m' : TcpSock := { m with acceptQueue := rest, acceptBacklog := m.acceptBacklog - 1 } with hm'
    obtain ⟨⟨⟩, s1, hfree, hrest⟩ := bind_inv hrun
    obtain ⟨u, s2, rfl, -, hmatch⟩ := getSk_bind_inv hrest
    generalize u.parent = parent at hmatch
    cases parent with
    | none | dead =>
      obtain ⟨⟨⟩, s3, hnull, -⟩ := bind_inv hmatch
      simp [fault] at hnull
    | sock q =>
      obtain ⟨⟨⟩, s3, hfree', hlast⟩ := bind_inv hmatch
      obtain ⟨⟨⟩, s4, hdead, hret⟩ := bind_inv hlast
      obtain ⟨hnew, rfl⟩ := ok_inj hret
      obtain rfl := Option.some.inj hnew
      have hkeep : ∀ i, Keeps i (Same queueing) (fun _ => True) (s.put p m') s4 := by
        intro i
        have h1 : Keeps i (Same queueing) (fun _ => True) (s.put p m') s2 :=
          keeps_freeSock _ (fun _ _ => rfl) _ _ _ hfree
        have h3 : Keeps i (Same queueing) (fun _ => True) s2 s3 :=
          keeps_freeSock _ (fun _ _ => rfl) _ _ _ hfree'
        have h4 : Respects (Keeps i (Same queueing) (fun _ => True))
            (modifySk net.env new fun t => { t with parent := .dead }) :=
          keeps_modifySk fun _ => rfl
        exact (h1.trans h3).trans (h4 _ _ _ hdead)
      refine ⟨rest, rfl, fun m1 hm1 => ?_, fun j t' hj => ?_⟩
      · obtain ⟨m0, hm0, hsame⟩ := (hkeep p).1 m1 hm1
        cases Option.mem_unique sock_put hm0
        exact hsame
      · obtain ⟨t0, ht0, hsame⟩ := (hkeep j).1 t' hj
        have hstate : t'.state = t0.state := congrArg Prod.fst hsame
        by_cases hjp : j = p
        · subst hjp
          cases Option.mem_unique sock_put ht0
          exact ⟨m, hm, hstate⟩
        · exact ⟨t0, (sock_put_of_ne hjp m').symm.trans ht0, hstate⟩

end Steps

section Runs

variable {net : Net} {p : ℕ} {ok : TcpSock → Prop} {s : Local} {done out : List ℕ} {m : TcpSock}

structure Ledger (done out : List ℕ) (s : Local) (m : TcpSock) : Prop where
  backlog : 0 ≤ m.backlog
  counter : m.acceptBacklog = -(out.length : ℤ)
  queue : done.Perm (out ++ m.acceptQueue)
  apart : ∀ c ∈ m.acceptQueue, ∀ t, s.sock c = some t → t.state ≠ .synRecv

lemma Run.ledger (hr : Run net p ok s done out) (hm : s.sock p = some m) : Ledger done out s m := by
  induction hr generalizing m with
  | start h hb hz hq =>
    cases Option.mem_unique h hm
    exact ⟨hb, by simp [hz], by simp [hq], by simp [hq]⟩
  | @complete s s' done out c t m0 seg _ hc hst hp hm0 _ hrun ih =>
    obtain ⟨-, hpc, hp', hc', hother⟩ := checkAck_completes hc hst hp hm0 hrun
    cases Option.mem_unique hp' hm
    have hl := ih hm0
    have hnot : c ∉ m0.acceptQueue := fun hmem => hl.apart c hmem t hc hst
    refine ⟨hl.backlog, hl.counter, ?_, fun j hj u hu => ?_⟩
    · rw [List.erase_of_not_mem hnot]
      calc done ++ [c] ~ (out ++ m0.acceptQueue) ++ [c] := hl.queue.append_right [c]
        _ ~ c :: (out ++ m0.acceptQueue) := List.perm_append_singleton _ _
        _ ~ out ++ c :: m0.acceptQueue := List.perm_middle.symm
    · by_cases hjc : j = c
      · subst hjc
        rw [hc' u hu]
        simp
      · have hj' : j ∈ m0.acceptQueue := by
          simpa [hjc, List.erase_of_not_mem hnot] using hj
        by_cases hjp : j = p
        · subst hjp
          cases Option.mem_unique hp' hu
          exact hl.apart j hj' m0 hm0
        · exact hl.apart j hj' u ((hother j hjp hjc).symm.trans hu)
  | @accept s s' done out c hr hrun ih =>
    obtain ⟨m0, hm0⟩ := tcpAccept_live hrun
    have hl := ih hm0
    obtain ⟨rest, hq, hsame, hstates⟩ := tcpAccept_takes hm0 hrun
    obtain ⟨h1, h2, h3, h4⟩ : m.state = m0.state ∧ m.backlog = m0.backlog ∧
        m.acceptBacklog = m0.acceptBacklog - 1 ∧ m.acceptQueue = rest := by
      simpa [Same, queueing] using hsame m hm
    refine ⟨h2 ▸ hl.backlog, ?_, ?_, fun j hj u hu => ?_⟩
    · rw [h3, hl.counter, List.length_append, List.length_singleton]
      omega
    · rw [h4, List.append_assoc, List.singleton_append, ← hq]
      exact hl.queue
    · obtain ⟨u0, hu0, hst⟩ := hstates j u hu
      rw [hst]
      exact hl.apart j (by rw [hq]; exact List.mem_cons_of_mem c (h4 ▸ hj)) u0 hu0
  | @other s s' done out _ haside ih =>
    obtain ⟨m0, hm0, hsame⟩ := haside.listener m hm
    have hl := ih hm0
    obtain ⟨h1, h2, h3, h4⟩ : m.state = m0.state ∧ m.backlog = m0.backlog ∧
        m.acceptBacklog = m0.acceptBacklog ∧ m.acceptQueue = m0.acceptQueue := by
      simpa [Same, queueing] using hsame
    refine ⟨h2 ▸ hl.backlog, h3 ▸ hl.counter, h4 ▸ hl.queue, fun j hj u hu hsyn => ?_⟩
    obtain ⟨u0, hu0, hst⟩ := haside.queued m0 hm0 j (h4 ▸ hj) u hu hsyn
    exact hl.apart j (h4 ▸ hj) u0 hu0 hst

theorem acceptBacklog_eq_length_iff (hr : Run net p ok s done out) (hm : s.sock p = some m) :
    (m.acceptBacklog = m.acceptQueue.length ∧ (m.acceptQueue.length : ℤ) ≤ m.backlog) ↔ done = [] := by
  have hl := hr.ledger hm
  have hlen : done.length = out.length + m.acceptQueue.length := by
    rw [hl.queue.length_eq, List.length_append]
  have hcount := hl.counter
  have hback := hl.backlog
  refine ⟨fun h => ?_, fun h => ?_⟩
  · have hzero : done.length = 0 := by omega
    exact List.eq_nil_of_length_eq_zero hzero
  · rw [h, List.length_nil] at hlen
    omega

theorem accepted_in_order (hr : Run net p (fun m => m.acceptQueue = []) s done out) (hm : s.sock p = some m) :
    done = out ++ m.acceptQueue := by
  induction hr generalizing m with
  | start h _ _ hq =>
    cases Option.mem_unique h hm
    simp [hq]
  | @complete s s' done out c t m0 seg _ hc hst hp hm0 hempty hrun ih =>
    obtain ⟨-, -, hp', -, -⟩ := checkAck_completes hc hst hp hm0 hrun
    cases Option.mem_unique hp' hm
    simp [ih hm0, hempty]
  | @accept s s' done out c hr hrun ih =>
    obtain ⟨m0, hm0⟩ := tcpAccept_live hrun
    obtain ⟨rest, hq, hsame, -⟩ := tcpAccept_takes hm0 hrun
    have hrest : m.acceptQueue = rest := congrArg (fun q => q.2.2.2) (hsame m hm)
    simp [ih hm0, hq, hrest]
  | @other s s' done out _ haside ih =>
    obtain ⟨m0, hm0, hsame⟩ := haside.listener m hm
    have hqueue : m.acceptQueue = m0.acceptQueue := congrArg (fun q => q.2.2.2) hsame
    rw [hqueue]
    exact ih hm0

end Runs

section Scripts

open Inet

def busy : Local :=
  ((play (fun _ _ => True) [.socket 6, .bind 0 0x0100000a 0x0080, .listen 0 1, .accept 0,
    .segment noPkb { bareSyn 500 0 with ackBit := false },
    .segment noPkb { bareSyn 700 0 with ackBit := false, tcphdrSrc := 0x5100 }] boot).getD boot).stack

def firstDone : Local := finalState (checkAck Session.online.env 1 (bare 501 12345680)) busy

def bothDone : Local := finalState (checkAck Session.online.env 2 (bare 701 12345681)) firstDone

def taken : Local := finalState (tcpAccept Session.online.env 0) bothDone

lemma run_busy {ok : TcpSock → Prop} : Run Session.online 0 ok busy [] [] := by
  obtain ⟨m, hm, hb, hz, hq⟩ : ∃ m, busy.sock 0 = some m ∧ 0 ≤ m.backlog ∧ m.acceptBacklog = 0 ∧
      m.acceptQueue = [] := by decide +kernel
  exact .start hm hb hz hq

lemma run_firstDone {ok : TcpSock → Prop} (hok : ∀ m, busy.sock 0 = some m → ok m) :
    Run Session.online 0 ok firstDone [1] [] := by
  obtain ⟨t, ht, hst, hp⟩ : ∃ t, busy.sock 1 = some t ∧ t.state = .synRecv ∧ t.parent = .sock 0 := by
    decide +kernel
  obtain ⟨m, hm, -⟩ : ∃ m, busy.sock 0 = some m ∧ True := by decide +kernel
  exact run_busy.complete ht hst hp hm (hok m hm) (run_of_outcome (by decide +kernel))

lemma run_bothDone : Run Session.online 0 (fun _ => True) bothDone [1, 2] [] := by
  obtain ⟨t, ht, hst, hp⟩ : ∃ t, firstDone.sock 2 = some t ∧ t.state = .synRecv ∧ t.parent = .sock 0 := by
    decide +kernel
  obtain ⟨m, hm, -⟩ : ∃ m, firstDone.sock 0 = some m ∧ True := by decide +kernel
  exact (run_firstDone fun _ _ => trivial).complete ht hst hp hm trivial (run_of_outcome (by decide +kernel))

theorem acceptBacklog_eq_length_iff_busy : ∃ m, busy.sock 0 = some m ∧
    m.acceptBacklog = m.acceptQueue.length ∧ (m.acceptQueue.length : ℤ) ≤ m.backlog := by
  obtain ⟨m, hm, -⟩ : ∃ m, busy.sock 0 = some m ∧ True := by decide +kernel
  have hr : Run Session.online 0 (fun _ => True) busy [] [] := run_busy
  exact ⟨m, hm, (acceptBacklog_eq_length_iff hr hm).mpr rfl⟩

-- `tcp_accept_enqueue` counts in the child; the listener's own counter never says that it is full.
theorem two_children_backlog_one : ∃ m, Run Session.online 0 (fun _ => True) bothDone [1, 2] [] ∧
    bothDone.sock 0 = some m ∧ m.acceptQueue.length = 2 ∧ m.backlog = 1 ∧ m.acceptBacklog = 0 := by
  obtain ⟨m, hm, hrest⟩ : ∃ m, bothDone.sock 0 = some m ∧ m.acceptQueue.length = 2 ∧ m.backlog = 1 ∧
      m.acceptBacklog = 0 := by decide +kernel
  exact ⟨m, run_bothDone, hm, hrest⟩

def firstTaken : Local := finalState (tcpAccept Session.online.env 0) firstDone

def secondDone : Local := finalState (checkAck Session.online.env 2 (bare 701 12345681)) firstTaken

def bothTaken : Local := finalState (tcpAccept Session.online.env 0) secondDone

theorem accepted_in_order_bothTaken : ∃ m, Run Session.online 0 (fun m => m.acceptQueue = []) bothTaken [1, 2] [1, 2] ∧
    bothTaken.sock 0 = some m ∧ [1, 2] = [1, 2] ++ m.acceptQueue := by
  have hempty : ∀ m, busy.sock 0 = some m → m.acceptQueue = [] := by decide +kernel
  have hr1 : Run Session.online 0 (fun m => m.acceptQueue = []) firstTaken [1] [1] :=
    (run_firstDone hempty).accept (run_of_outcome (by decide +kernel))
  obtain ⟨t, ht, hst, hp⟩ : ∃ t, firstTaken.sock 2 = some t ∧ t.state = .synRecv ∧ t.parent = .sock 0 := by
    decide +kernel
  obtain ⟨m, hm, hq⟩ : ∃ m, firstTaken.sock 0 = some m ∧ m.acceptQueue = [] := by decide +kernel
  have hr2 : Run Session.online 0 (fun m => m.acceptQueue = []) secondDone [1, 2] [1] :=
    hr1.complete ht hst hp hm hq (run_of_outcome (by decide +kernel))
  have hr3 : Run Session.online 0 (fun m => m.acceptQueue = []) bothTaken [1, 2] [1, 2] :=
    hr2.accept (run_of_outcome (by decide +kernel))
  obtain ⟨m', hm', -⟩ : ∃ m, bothTaken.sock 0 = some m ∧ True := by decide +kernel
  exact ⟨m', hr3, hm', accepted_in_order hr3 hm'⟩

-- `list_add` and `list_first_entry` make a stack.
theorem second_child_accepted_first : Run Session.online 0 (fun _ => True) taken [1, 2] [2] ∧ ¬[2] <+: [1, 2] :=
  ⟨run_bothDone.accept (run_of_outcome (by decide +kernel)), by decide⟩

end Scripts

end Tapip.Sockets.Backlog
