import Tapip.Sockets.Inet

/-! Relations between hosts that every step is in, because the pieces all steps are made of are. -/

namespace Tapip.Sockets.Inet

open Foundation.Program Tcp Tcp.Connection

section Sequential

variable {cfg : Config} {W : (α : Type) → Prog Host α → Prop} (hW : Sequential W) (hopen : ∀ k, W _ (opened k))
  (hstack : ∀ {α : Type} (x : Prog Local α), W _ (onStack x)) (hport : ∀ i nport, W _ (setPort cfg i nport))

include hW hopen hstack hport

lemma sequential_bind (k : ℕ) (saddr : UInt32) (sport : UInt16) : W _ (bind cfg k saddr sport) := by
  refine hW.bind (hopen k) fun id => hW.bind (hstack _) fun tsk => ?_
  split_ifs
  · exact hW.pure ()
  · exact hW.pure ()
  · refine hW.bind (hstack _) fun _ => hW.bind (hport id sport) fun ok => ?_
    split_ifs <;> exact hstack _

lemma sequential_connect (href : ∀ k, W _ (getRef k)) (hsleep : ∀ k i, W _ (sleep (.connect k i))) (k : ℕ)
    (daddr : UInt32) (dport : UInt16) : W _ (connect cfg k daddr dport) := by
  refine hW.bind (hopen k) fun id => hW.bind (hstack _) fun tsk => ?_
  split_ifs
  · exact hW.pure ()
  · refine hW.bind ?_ fun ok => ?_
    · rw [autobind]
      split_ifs
      · exact hport id 0
      · exact hW.pure true
    · split_ifs
      · exact hW.pure ()
      · cases cfg.route daddr with
        | none => exact hW.pure ()
        | some rt =>
          refine hW.bind (hstack _) fun _ => hW.bind (hstack _) fun ok => ?_
          split_ifs
          · exact hW.bind (hstack _) fun _ => hW.bind (href k) fun _ => hsleep k id
          · exact hW.pure ()

end Sequential

/-- `T` says nothing about the stack and the sockets; unless `accepts`, a thread that goes to sleep in
`tcp_accept` is not meant. -/
structure Steady (cfg : Config) (accepts : Prop) (T : Host → Host → Prop) : Prop where
  refl : ∀ h, T h h
  trans : ∀ {h1 h2 h3}, T h1 h2 → T h2 h3 → T h1 h3
  stack : ∀ h s, T h { h with stack := s }
  sockets : ∀ h f n, T h { h with sockets := f, nextSocket := n }
  setPort : ∀ id nport, Respects T (setPort cfg id nport)
  sleep : ∀ c, c.acceptor = none ∨ accepts → Respects T (sleep c)

namespace Steady

variable {α β : Type} {cfg : Config} {accepts : Prop} {T : Host → Host → Prop}

variable (hT : Steady cfg accepts T)

include hT

lemma sequential : Sequential fun (α : Type) (x : Prog Host α) => Respects T x :=
  sequential_respects hT.refl hT.trans

lemma bind {x : Prog Host α} {f : α → Prog Host β} (hx : Respects T x) (hf : ∀ a, Respects T (f a)) :
    Respects T (x >>= f) := hT.sequential.bind hx hf

lemma pure (a : α) : Respects T (pure a : Prog Host α) := hT.sequential.pure a

lemma onStack (x : Prog Local α) : Respects T (onStack x) := by
  intro h a h' hrun
  cases hx : x h.stack with
  | error e => simp [Inet.onStack, hx, Except.map] at hrun
  | ok p =>
    simp only [Inet.onStack, hx, Except.map] at hrun
    cases hrun
    exact hT.stack h p.2

lemma getSocket (k : ℕ) : Respects T (getSocket k) := by
  intro h so h' hrun
  rw [(getSocket_inv hrun).2]
  exact hT.refl h

lemma setSocket (k : ℕ) (so : Option Socket) : Respects T (setSocket k so) := by
  intro h u h' hrun
  cases hrun
  exact hT.sockets h _ h.nextSocket

lemma allocSocket : Respects T allocSocket := by
  intro h k h' hrun
  cases hrun
  exact hT.sockets h _ _

lemma opened (k : ℕ) : Respects T (opened k) := by
  intro h i h' hrun
  rw [(opened_inv hrun).1]
  exact hT.refl h

lemma getRef (k : ℕ) : Respects T (getRef k) := hT.bind (hT.getSocket k) fun _ => hT.setSocket k _

lemma freeSocket (k : ℕ) : Respects T (freeSocket cfg k) := by
  refine hT.bind (hT.getSocket k) fun so => ?_
  split_ifs
  · exact hT.bind (hT.onStack _) fun _ => hT.setSocket k none
  · exact hT.setSocket k _

lemma acceptTurn (ha : accepts) (k new id : ℕ) : Respects T (acceptTurn cfg k new id) := by
  refine hT.bind (hT.onStack _) fun r => ?_
  cases r <;> exact hT.sleep _ (.inr ha)

lemma readEnds (k id : ℕ) (len : ℤ) (r : Recv) : Respects T (readEnds cfg k id len r) := by
  cases r with
  | returns ret => exact hT.freeSocket k
  | sleeps rlen => exact hT.sleep _ (.inl rfl)

lemma goOn {c : Call} (hc : c.acceptor = none ∨ accepts) : Respects T (goOn cfg c) := by
  cases c with
  | connect k id =>
    exact hT.bind (hT.getSocket k) fun _ => hT.bind (hT.onStack _) fun _ => hT.freeSocket k
  | accept k new id =>
    refine hT.bind (hT.onStack _) fun _ => hT.bind (hT.getSocket k) fun so => ?_
    split_ifs
    · exact hT.bind (hT.setSocket new none) fun _ => hT.freeSocket k
    · exact hT.acceptTurn (hc.resolve_left (by simp)) k new id
  | handOver k new newsk =>
    exact hT.bind (hT.onStack _) fun _ => hT.bind (hT.setSocket new _) fun _ => hT.freeSocket k
  | read k id len rlen =>
    exact hT.bind (hT.getSocket k) fun _ => hT.bind (hT.onStack _) fun _ => hT.readEnds k id len _

end Steady

def accepting : Event → Prop
  | .accept _ => True
  | .wake c => c.acceptor ≠ none
  | _ => False

lemma Steady.exec {cfg : Config} {accepts : Prop} {T : Host → Host → Prop} (hT : Steady cfg accepts T)
    (hw : ∀ h c, T h { h with calls := h.calls.erase c }) {e : Event} (he : accepting e → accepts) :
    Respects T (exec cfg e) := by
  cases e with
  | socket protocol =>
    simp only [Inet.exec, socket]
    split_ifs
    · exact hT.pure ()
    · exact hT.bind hT.allocSocket fun k => hT.bind (hT.onStack _) fun _ => hT.setSocket k _
  | bind k saddr sport => exact sequential_bind hT.sequential hT.opened hT.onStack hT.setPort k saddr sport
  | listen k backlog =>
    refine hT.bind (hT.opened k) fun id => ?_
    split_ifs
    · exact hT.pure ()
    · exact hT.bind (hT.onStack _) fun _ => hT.pure ()
  | connect k daddr dport => 
    exact sequential_connect hT.sequential hT.opened hT.onStack hT.setPort hT.getRef
      (fun k i => hT.sleep (.connect k i) (.inl rfl)) k daddr dport
  | accept k =>
    exact hT.bind (hT.opened k) fun id => hT.bind (hT.getRef k) fun _ =>
      hT.bind hT.allocSocket fun new => hT.acceptTurn (he trivial) k new id
  | read k len =>
    refine hT.bind (hT.opened k) fun id => ?_
    split_ifs
    · exact hT.pure ()
    · exact hT.bind (hT.getRef k) fun _ => hT.bind (hT.onStack _) fun r => hT.readEnds k id len r
  | write k buf len =>
    refine hT.bind (hT.opened k) fun id => ?_
    split_ifs
    · exact hT.pure ()
    · exact hT.bind (hT.onStack _) fun _ => hT.pure ()
  | close k =>
    exact hT.bind (hT.opened k) fun _ => hT.bind (hT.getSocket k) fun _ =>
      hT.bind (hT.setSocket k _) fun _ => hT.freeSocket k
  | wake c =>
    intro h u h' hrun
    simp only [Inet.exec, Inet.wake] at hrun
    split_ifs at hrun
    · exact hT.trans (hw h c) (hT.goOn (or_iff_not_imp_left.mpr he) _ _ _ hrun)
    · cases hrun
      exact hT.refl h
  | segment pkb seg => exact hT.onStack _
  | tick delta => exact hT.onStack _

end Tapip.Sockets.Inet
