import Tapip.Tcp.SendSequence

/-! The states a connection passes through. -/

namespace Tapip.Tcp.Diagram

open Foundation.Program Text Connection Session Changes SendSequence Relation

/-- Where a segment or `tcp_close` takes a sock that does not listen. -/
def next : TcpState → List TcpState
  | .synSent => [.synRecv, .established, .closed]
  | .synRecv => [.established, .closeWait, .closed]
  | .established => [.closeWait, .finWait1, .closed]
  | .finWait1 => [.finWait2, .closing, .closed]
  | .finWait2 | .closing => [.timeWait, .closed]
  | .closeWait => [.lastAck, .closed]
  | .lastAck | .timeWait => [.closed]
  | .closed | .listen => []

abbrev Path : TcpState → TcpState → Prop := ReflTransGen fun a b => b ∈ next a

def depth (a : TcpState) : ℕ := List.idxOf a
  [.synSent, .synRecv, .established, .finWait1, .closeWait, .finWait2, .closing, .lastAck, .timeWait, .closed]

abbrev Course (net : Net) (id : ℕ) : Local → Local → Prop :=
  ReflTransGen fun s s' => ∃ op k f, Step net id op s k f s'

variable {net : Net} {id k f : ℕ} {s s' s1 s2 : Local} {t t' t1 t2 : TcpSock} {seg : TcpSegment} {a b : TcpState}

lemma Path.depth (h : Path a b) : a = b ∨ depth a < depth b := by
  induction h with
  | refl => exact .inl rfl
  | @tail b c _ hn ih =>
    have hlt : Diagram.depth b < Diagram.depth c := by
      cases b <;> cases c <;> simp [next] at hn <;> decide
    rcases ih with rfl | ih
    · exact .inr hlt
    · exact .inr (ih.trans hlt)

lemma Path.ne_listen (h : Path a b) (hl : a ≠ .listen) : b ≠ .listen := by
  induction h with
  | refl => exact hl
  | @tail b c _ hn _ => cases b <;> cases c <;> simp [next] at hn ⊢

lemma path_of_next (h : b = a ∨ b ∈ next a) : Path a b := by
  rcases h with rfl | h
  · exact .refl
  · exact .single h

lemma Change.path (h : Change seg t t') (hl : t.state ≠ .listen) : Path t.state t'.state := by
  apply path_of_next
  cases h with
  | aside hside => exact .inl (alike hside).state
  | cut => cases hs : t.state <;> simp_all [next]
  | syn hs =>
    dsimp only
    split_ifs <;> simp [hs, next]
  | completed hs => simp [hs, next]
  | acked => cases hs : t.state <;> simp_all [next, ackedState]
  | text _ _ _ htext =>
    obtain ⟨_, _, _, _, _, _, _, he⟩ := tcpRecvText_receives htext
    simp [he]
  | fin => cases hs : t.state <;> simp_all [next, finState, setRefcnt]

lemma Step.path {op : Op} (h : Step net id op s k f s') (ht : s.sock id = some t) (hl : t.state ≠ .listen)
    (ht' : s'.sock id = some t') : Path t.state t'.state := by
  cases h with
  | segment hrun =>
    have ha := (tcpProcess_alters ht hl hrun).rel ht ht'
    refine ha.invariant (I := fun t1 => Path t.state t1.state) (fun hc hp => ?_) .refl
    exact hp.trans (Change.path hc (hp.ne_listen hl))
  | send hrun =>
    rw [(alike ((tcpSendText_at ht hrun).2 t' ht')).state]
    exact .refl
  | close _ hrun =>
    rw [(alike (tcpClose_at ht hl hrun t' ht')).state]
    apply path_of_next
    cases hs : t.state <;> simp_all [next, closed]

lemma Course.path (h : Course net id s s') (ht : s.sock id = some t) (hl : t.state ≠ .listen)
    (ht' : s'.sock id = some t') : Path t.state t'.state := by
  induction h generalizing t' with
  | refl => rw [Option.mem_unique ht ht']
  | tail _ hstep ih =>
    obtain ⟨op, k, f, hstep⟩ := hstep
    obtain ⟨t1, ht1⟩ := hstep.back
    exact (ih ht1).trans (Step.path hstep ht1 ((ih ht1).ne_listen hl) ht')

theorem states_follow_diagram (h1 : Course net id s s1) (h2 : Course net id s1 s2) (ht : s.sock id = some t)
    (hl : t.state ≠ .listen) (ht1 : s1.sock id = some t1) (ht2 : s2.sock id = some t2) :
    Path t.state t1.state ∧ (t1.state ≠ t.state → t2.state ≠ t.state) := by
  have hp := h1.path ht hl ht1
  refine ⟨hp, fun hne he => ?_⟩
  have hlt := hp.depth.resolve_left hne.symm
  rcases (h2.path ht1 (hp.ne_listen hl) ht2).depth with heq | hlt'
  · exact hne (heq.trans he)
  · exact lt_asymm hlt (he ▸ hlt')

theorem states_follow_diagram_opened : ∃ t t1, dialled.sock 0 = some t ∧
    SendWindow.opened.sock 0 = some t1 ∧ Path t.state t1.state ∧ t1.state ≠ t.state := by
  have ht := @sock_of_isSome dialled (by decide +kernel)
  have ht1 := @sock_of_isSome SendWindow.opened (by decide +kernel)
  have h : Course online 0 dialled SendWindow.opened :=
    .single ⟨_, _, _, .segment (run_of_outcome (by decide +kernel))⟩
  exact ⟨_, _, ht, ht1, (states_follow_diagram h .refl ht (by decide +kernel) ht1 ht1).1, by decide +kernel⟩

end Tapip.Tcp.Diagram
