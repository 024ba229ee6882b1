import Tapip.Sockets.Invariants
import Tapip.Sockets.Moves
import Tapip.Tcp.CloseListener

/-! Closing a listening socket: what becomes of the connections that nobody has accepted. -/

namespace Tapip.Sockets.Inet

open Foundation.Program Foundation.Hoare Tcp Tcp.Acts Tcp.Connection Tcp.Links Tcp.CloseListener

section Below

def Below (g : Shown) : Prop := ∀ i v, g.sock i = some v → i < g.next

variable {R : View → View → Prop} {g g' : Shown}

lemma Below.set (h : Below g) {i : ℕ} {v : Option View} (hi : v.isSome = true → i < g.next) : Below (g.set i v) := by
  intro j w hj
  by_cases hji : j = i
  · subst hji
    refine hi ?_
    simp only [Shown.set, Function.update_self] at hj
    simp [hj]
  · refine h j w ?_
    simpa [Shown.set, hji] using hj

lemma Below.act (h : Below g) (ha : Act R g g') : Below g' := by
  have hgrow : ∀ v : View, Below { g.set g.next (some v) with next := g.next + 1 } := by
    intro v j w hj
    by_cases hjn : j = g.next
    · exact hjn ▸ Nat.lt_succ_self _
    · have hold : g.sock j = some w := by simpa [Shown.set, hjn] using hj
      exact (h j w hold).trans (Nat.lt_succ_self _)
  cases ha with
  | set hv _ => exact h.set fun _ => h _ _ hv
  | free => exact h.set fun hnew => by cases hnew
  | alloc _ => exact hgrow _
  | request _ _ => exact hgrow _
  | hash hv _ _ => exact h.set fun _ => h _ _ hv
  | listen hv _ => exact h.set fun _ => h _ _ hv
  | unhash hv _ => exact h.set fun _ => h _ _ hv
  | discard hv _ _ => exact h.set fun _ => h _ _ hv
  | bhash hv _ _ => exact h.set fun _ => h _ _ hv
  | unbhash hv _ => exact h.set fun _ => h _ _ hv

lemma fits_any : Fits (fun _ => True) fun _ _ => True :=
  ⟨⟨fun _ _ _ _ => trivial, fun _ _ => trivial, fun _ => trivial, fun _ _ _ _ => trivial⟩,
    fun _ _ => trivial⟩

lemma Reached.socks_below {ok : Host → Event → Prop} {h : Host} (hr : Reached ok h) : Below (shown h.stack) := by
  induction hr with
  | boot => intro i v hv; cases hv
  | step _ _ hrun ih =>
    have hmoves := exec_moves _ fits_any (fun _ _ _ _ _ _ _ => trivial) (fun _ _ _ _ _ => trivial)
      (fun _ _ _ _ _ _ _ _ _ _ => trivial) hrun
    exact hmoves.invariant (fun ha hg => hg.act ha) ih

end Below

section Close

variable {h : Host} {i k : ℕ} {t : TcpSock} {so : Socket}

lemma closes (net : Net) (hr : Reached (Orderly False False False) h) (hk : h.sockets k = some so)
    (hi : so.sk = some i) (ht : h.stack.sock i = some t) (hl : t.state = .listen) :
    ∃ s', tcpClose net.env i h.stack = .ok ((), s') := by
  have H := holds_of_reached hr
  obtain ⟨hown, hused, -⟩ := H.owned hk hi
  have hn := node_of_sock ht
  have hidle : ∀ j, j ≠ i → ¬used h j → own h j = 0 := by
    intro j _ hj
    have hl := lent_nonneg h j
    have ho := H.sound.counted.own_nonneg j
    simp only [used, Pi.zero_apply] at hj ho
    omega
  have heff : Effect seen (fun _ => True) (tcpClose net.env i) (seen h.stack) _ :=
    sound_closeListener H.sound hn hl (fun hh => hh.1) hown (H.sound.timed.adopted i _ hn hused) hidle (by simp)
  have hrun := heff h.stack rfl
  cases hx : tcpClose net.env i h.stack with
  | error e => exact absurd hx (hrun.no_fault trivial)
  | ok r => exact ⟨r.2, rfl⟩

theorem listener_close_releases_iff (hr : Reached (fun _ _ => True) h) (ht : h.stack.sock i = some t)
    (hl : t.state = .listen) (net : Net) :
    (∀ s', tcpClose net.env i h.stack = .ok ((), s') →
      (Released i t h.stack s' ↔ OnlyRequests h.stack i t)) ∧
    (Reached (Orderly False False False) h → h.sockets k = some so → so.sk = some i →
      ∃ s', tcpClose net.env i h.stack = .ok ((), s')) := by
  refine ⟨fun s' hrun => ?_, fun hr' hk hi => closes net hr' hk hi ht hl⟩
  refine released_iff (fun c u hu => ?_) ht hl hrun
  exact hr.socks_below c (view u) (Option.map_eq_some_iff.mpr ⟨u, hu, rfl⟩)

theorem listener_close_releases_answering : ∃ h t s', Reached (fun _ _ => True) h ∧ h.stack.sock 0 = some t ∧
    t.listenQueue = [1] ∧ tcpClose Session.online.env 0 h.stack = .ok ((), s') ∧
      Released 0 t h.stack s' := by
  obtain ⟨h, hr, ⟨so, hk, hi⟩, t, ht, hl, hq, ha, hall⟩ := exists_reached (Orderly False False False) answering
    (P := fun h => (∃ so, h.sockets 0 = some so ∧ so.sk = some 0) ∧ ∃ t, h.stack.sock 0 = some t ∧ t.state = .listen ∧
      t.listenQueue = [1] ∧ t.acceptQueue = [] ∧ ∀ c ∈ List.range h.stack.tcp.nextSock, ∀ u,
        h.stack.sock c = some u → u.parent = .sock 0 → c ∈ t.listenQueue ∧ u.state = .synRecv) (by decide +kernel)
  have hany := hr.mono fun _ _ _ => trivial
  obtain ⟨hiff, hreturns⟩ := listener_close_releases_iff hany ht hl Session.online
  obtain ⟨s', hrun⟩ := hreturns hr hk hi
  refine ⟨h, t, s', hany, ht, hq, hrun, (hiff s' hrun).mpr ⟨ha, fun c u hu hp => ?_⟩⟩
  have hlt := hr.socks_below c (view u) (Option.map_eq_some_iff.mpr ⟨u, hu, rfl⟩)
  exact hall c (List.mem_range.mpr hlt) u hu hp

-- The listener is closed between the end of a handshake and the turn of the thread in `tcp_accept`.
theorem unaccepted_child_keeps_parent : ∃ h t s', Reached (Orderly True True True) h ∧ h.stack.sock 0 = some t ∧
    t.state = .listen ∧ tcpClose Session.online.env 0 h.stack = .ok ((), s') ∧
      (∃ u, s'.sock 1 = some u ∧ u.parent = .sock 0) ∧ ¬Released 0 t h.stack s' := by
  obtain ⟨h, hr, t, ht, hl, ⟨r, hrun⟩, htable, u, hu, hp⟩ := exists_reached (Orderly True True True)
    (answering ++ [.accept 0, .segment noPkb (bare 501 12345680), .close 0])
    (P := fun h => ∃ t, h.stack.sock 0 = some t ∧ t.state = .listen ∧
      (∃ r, outcome (tcpClose Session.online.env 0) h.stack = some r ∧ r = ()) ∧
      1 ∈ (finalState (tcpClose Session.online.env 0) h.stack).tcp.etable ∧
      ∃ u, (finalState (tcpClose Session.online.env 0) h.stack).sock 1 = some u ∧ u.parent = .sock 0)
    (by decide +kernel)
  exact ⟨h, t, _, hr, ht, hl, run_of_outcome hrun.1, ⟨u, hu, hp⟩, fun hrel => hrel.orphans 1 u hu (.inl htable) hp⟩

end Close

end Tapip.Sockets.Inet
