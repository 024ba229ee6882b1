import Tapip.Sockets.Inet
import Tapip.Tcp.ApiActs

/-! What the steps of a host do to the socks. -/

namespace Tapip.Sockets.Inet

open Foundation.Program Tcp Tcp.Connection Tcp.Acts Relation

variable {id k new : ℕ} {t : TcpSock} {u : Unit} {s : Local}

structure Fits (P : TcpState → Prop) (R : View → View → Prop) : Prop extends Allows R where
  dead : ∀ v, P v.state → R v { v with parent := .dead }

def Waiting (P : TcpState → Prop) (s : Local) : Prop :=
  ∀ i j t c, s.sock i = some t → j ∈ t.acceptQueue → s.sock j = some c → P c.state

variable {α β : Type} {R : View → View → Prop}

def Moves (R : View → View → Prop) (x : Prog Host α) : Prop :=
  Respects (fun h h' => Chain R (shown h.stack) (shown h'.stack)) x

lemma Moves.bind {x : Prog Host α} {f : α → Prog Host β} (hx : Moves R x) (hf : ∀ a, Moves R (f a)) :
    Moves R (x >>= f) := Respects.bind (fun h1 h2 => h1.trans h2) hx hf

lemma moves_pure (a : α) : Moves R (pure a : Prog Host α) := Respects.pure (fun _ => .refl) a

lemma Acts.Does.moves {x : Prog Local α} (hx : Does R x) : Moves R (onStack x) :=
  fun h a h' hrun => hx h.stack a h'.stack (onStack_inv hrun)

def Outside (x : Prog Host α) : Prop := Respects (fun h h' => h'.stack = h.stack) x

lemma Outside.bind {x : Prog Host α} {f : α → Prog Host β} (hx : Outside x) (hf : ∀ a, Outside (f a)) :
    Outside (x >>= f) := Respects.bind (fun h1 h2 => h2.trans h1) hx hf

lemma Outside.moves {x : Prog Host α} (hx : Outside x) : Moves R x := by
  intro h a h' hrun
  rw [hx h a h' hrun]

lemma outside_getSocket (k : ℕ) : Outside (getSocket k) := by
  intro h so h' hrun
  rw [(getSocket_inv hrun).2]

lemma outside_setSocket (k : ℕ) (so : Option Socket) : Outside (setSocket k so) := by
  intro h u h' hrun
  cases hrun
  rfl

lemma outside_sleep (c : Call) : Outside (sleep c) := by
  intro h u h' hrun
  cases hrun
  rfl

lemma outside_allocSocket : Outside allocSocket := by
  intro h k h' hrun
  cases hrun
  rfl

lemma outside_opened (k : ℕ) : Outside (opened k) := by
  intro h i h' hrun
  rw [(opened_inv hrun).1]

lemma outside_getRef (k : ℕ) : Outside (getRef k) :=
  Outside.bind (outside_getSocket k) fun _ => outside_setSocket k _

section Walk

variable (cfg : Config) {P : TcpState → Prop} {h h' : Host}

lemma moves_setAddr (id : ℕ) {f : Sock → Sock} (hf : ∀ t, view { t with sk := f t.sk } = view t) :
    Moves R (setAddr cfg id f) := Acts.Does.moves (still_modifySk hf id).does

lemma moves_freeSocket (ha : Allows R) (k : ℕ) : Moves R (freeSocket cfg k) := by
  refine Moves.bind (outside_getSocket k).moves fun so => ?_
  have hclose : Does R (inetClose cfg so) := by
    rw [inetClose]
    cases so.sk with
    | none => exact does_pure
    | some id => exact Does.bind (does_tcpClose ha id) fun _ => does_freeSock id
  split_ifs
  · exact Moves.bind (Acts.Does.moves hclose) fun _ => (outside_setSocket k none).moves
  · exact (outside_setSocket k _).moves

lemma setPort_moves {nport : UInt16} {b : Bool} (ht : h.stack.sock id = some t)
    (hz : t.sk.skSport = 0) (hrun : setPort cfg id nport h = .ok (b, h')) :
    Chain R (shown h.stack) (shown h'.stack) := by
  obtain ⟨⟨⟨b', d⟩, s⟩, hset, hret⟩ := bind_eq_ok.mp hrun
  cases hret
  exact tcpSetSport_acts ht hz hset

lemma opened_getSk {h1 h2 : Host} (hopen : opened k h = .ok (id, h1))
    (hget : onStack (getSk cfg.env id) h1 = .ok (t, h2)) :
    h2.stack = h.stack ∧ h.stack.sock id = some t := by
  have hstack := outside_opened k _ _ _ hopen
  obtain ⟨ht, hsame⟩ := getSk_inv (onStack_inv hget)
  exact ⟨hsame.trans hstack, hstack ▸ ht⟩

lemma moves_bind (k : ℕ) (saddr : UInt32) (sport : UInt16) : Moves R (bind cfg k saddr sport) := by
  intro h u h' hrun
  obtain ⟨id, h1, hopen, hrest⟩ := bind_inv hrun
  obtain ⟨t, h2, hget, hrest⟩ := bind_inv hrest
  obtain ⟨hstack, ht⟩ := opened_getSk cfg hopen hget
  rw [← hstack] at ht ⊢
  split_ifs at hrest with hz
  · exact moves_pure _ _ _ _ hrest
  · exact moves_pure _ _ _ _ hrest
  · obtain ⟨⟨⟩, h3, haddr, hrest⟩ := bind_inv hrest
    have hsame : shown h3.stack = shown h2.stack :=
      still_modifySk (fun _ => by rfl) id _ _ _ (onStack_inv haddr)
    obtain ⟨t3, ht3, hv⟩ := sock_of_shown (hsame ▸ shown_sock ht)
    obtain ⟨b, h4, hport, hlast⟩ := bind_inv hrest
    have h0 : t3.sk.skSport = 0 := (congrArg View.sport hv).trans (not_not.mp hz)
    rw [← hsame]
    refine (setPort_moves cfg ht3 h0 hport).trans ?_
    split_ifs at hlast
    · exact moves_setAddr cfg id (fun _ => by rfl) _ _ _ hlast
    · exact moves_setAddr cfg id (fun _ => by rfl) _ _ _ hlast

lemma moves_connect (k : ℕ) (daddr : UInt32) (dport : UInt16) : Moves R (connect cfg k daddr dport) := by
  intro h u h' hrun
  obtain ⟨id, h1, hopen, hrest⟩ := bind_inv hrun
  obtain ⟨t, h2, hget, hrest⟩ := bind_inv hrest
  obtain ⟨hstack, ht⟩ := opened_getSk cfg hopen hget
  rw [← hstack] at ht ⊢
  split_ifs at hrest
  · exact moves_pure _ _ _ _ hrest
  · obtain ⟨b, h3, hbound, hrest⟩ := bind_inv hrest
    have h3' : Chain R (shown h2.stack) (shown h3.stack) := by
      rw [autobind] at hbound
      split_ifs at hbound with hz
      · exact setPort_moves cfg ht hz hbound
      · exact moves_pure _ _ _ _ hbound
    refine h3'.trans ?_
    split_ifs at hrest
    · exact moves_pure _ _ _ _ hrest
    · cases hroute : cfg.route daddr with
      | none =>
        simp only [hroute] at hrest
        exact moves_pure _ _ _ _ hrest
      | some rt =>
        simp only [hroute] at hrest
        refine Moves.bind (moves_setAddr cfg id (fun _ => by rfl)) (fun _ =>
          Moves.bind (Acts.Does.moves (does_tcpConnect id daddr dport)) fun b => ?_) _ _ _ hrest
        split_ifs
        · exact Moves.bind (Acts.Does.moves (still_sleepOn id).does) fun _ =>
            Moves.bind (outside_getRef k).moves fun _ => (outside_sleep _).moves
        · exact moves_pure _

lemma acceptTurn_moves (hf : Fits P R) (hp : Waiting P h.stack)
    (hrun : acceptTurn cfg k new id h = .ok (u, h')) : Chain R (shown h.stack) (shown h'.stack) := by
  obtain ⟨r, h1, haccept, hrest⟩ := bind_inv hrun
  have hin := onStack_inv haccept
  obtain ⟨t, -, -, ht, -⟩ := getSk_bind_inv hin
  refine (tcpAccept_acts hf.toAllows ht (fun j hj c hc => hf.dead _ (hp id j t c ht hj hc)) hin).trans ?_
  cases r with
  | none => exact (outside_sleep _).moves _ _ _ hrest
  | some newsk => exact (outside_sleep _).moves _ _ _ hrest

lemma accept_moves (hf : Fits P R) (hp : Waiting P h.stack)
    (hrun : accept cfg k h = .ok (u, h')) : Chain R (shown h.stack) (shown h'.stack) := by
  obtain ⟨id, h1, hopen, hrest⟩ := bind_inv hrun
  obtain ⟨⟨⟩, h2, href, hrest⟩ := bind_inv hrest
  obtain ⟨new, h3, halloc, hturn⟩ := bind_inv hrest
  have hstack : h3.stack = h.stack := by
    rw [outside_allocSocket _ _ _ halloc, outside_getRef k _ _ _ href, outside_opened k _ _ _ hopen]
  rw [← hstack] at hp ⊢
  exact acceptTurn_moves cfg hf hp hturn

lemma Waiting.put {t' : TcpSock} (hp : Waiting P s) (ht : s.sock id = some t)
    (hq : t'.acceptQueue = t.acceptQueue) (hs : t'.state = t.state) : Waiting P (s.put id t') := by
  have hold : ∀ i c, (s.put id t').sock i = some c →
      ∃ d, s.sock i = some d ∧ c.acceptQueue = d.acceptQueue ∧ c.state = d.state := by
    intro i c hc
    by_cases hi : i = id
    · subst hi
      rw [sock_put] at hc
      cases hc
      exact ⟨t, ht, hq, hs⟩
    · rw [sock_put_of_ne hi] at hc
      exact ⟨c, hc, rfl, rfl⟩
  intro i j p c hi hj hc
  obtain ⟨p', hp', hqp, -⟩ := hold i p hi
  obtain ⟨c', hc', -, hsc⟩ := hold j c hc
  rw [hsc]
  exact hp i j p' c' hp' (hqp ▸ hj) hc'

lemma acceptWoken_after (hf : Fits P R) (hp : Waiting P h.stack)
    (hrun : acceptWoken cfg k new id h = .ok (u, h')) : ∃ t, h.stack.sock id = some t ∧
      Chain R (shown (h.stack.put id { t with waitAccept := false })) (shown h'.stack) := by
  obtain ⟨⟨⟩, h1, hset, hrest⟩ := bind_inv hrun
  obtain ⟨t, ht, hput⟩ := modifySk_inv (onStack_inv hset)
  refine ⟨t, ht, ?_⟩
  have hp1 : Waiting P h1.stack := by
    rw [hput]
    exact hp.put ht rfl rfl
  obtain ⟨so, h2, hget, hlast⟩ := bind_inv hrest
  rw [← hput]
  rw [← outside_getSocket k _ _ _ hget] at hp1 ⊢
  split_ifs at hlast
  · exact Moves.bind (outside_setSocket new none).moves (fun _ => moves_freeSocket cfg hf.toAllows k) _ _ _ hlast
  · exact acceptTurn_moves cfg hf hp1 hlast

lemma acceptWoken_moves (hf : Fits P R) (hp : Waiting P h.stack) (hquit : ∀ v, R v { v with waitAccept := false })
    (hrun : acceptWoken cfg k new id h = .ok (u, h')) : Chain R (shown h.stack) (shown h'.stack) := by
  obtain ⟨t, ht, hafter⟩ := acceptWoken_after cfg hf hp hrun
  rw [shown_put] at hafter
  exact .head (.set (shown_sock ht) (hquit (view t))) hafter

lemma moves_readEnds (ha : Allows R) (k id : ℕ) (len : ℤ) (r : Recv) : Moves R (readEnds cfg k id len r) := by
  cases r with
  | returns ret => exact moves_freeSocket cfg ha k
  | sleeps rlen => exact (outside_sleep _).moves

lemma goOn_moves {c : Call} (hf : Fits P R) (hp : Waiting P h.stack)
    (hquit : ∀ k new id, c = .accept k new id → ∀ v, R v { v with waitAccept := false })
    (hrun : goOn cfg c h = .ok (u, h')) : Chain R (shown h.stack) (shown h'.stack) := by
  have hfree : ∀ k, Moves R (freeSocket cfg k) := moves_freeSocket cfg hf.toAllows
  cases c with
  | connect k id =>
    exact Moves.bind (outside_getSocket k).moves (fun so => Moves.bind
      (Acts.Does.moves (does_tcpConnectWoken hf.toAllows id so.dead)) fun _ => hfree k) _ _ _ hrun
  | accept k new id => exact acceptWoken_moves cfg hf hp (hquit k new id rfl) hrun
  | handOver k new newsk =>
    exact Moves.bind (Acts.Does.moves (still_getSock newsk).does) (fun _ =>
      Moves.bind (outside_setSocket new _).moves fun _ => hfree k) _ _ _ hrun
  | read k id len rlen =>
    exact Moves.bind (outside_getSocket k).moves (fun so => Moves.bind
      (Acts.Does.moves (still_tcpRecvBufWoken id len rlen so.dead).does)
        fun r => moves_readEnds cfg hf.toAllows k id len r) _ _ _ hrun

lemma allocSock_acts (net : Net) {s' : Local} (hrun : allocSock s = .ok (id, s')) : Chain R (shown s) (shown s') := by
  cases hrun
  have hshown := (@alloc_shown () net s _ newSock s.tcp.nextSock rfl).2
  exact hshown ▸ .single (.alloc ⟨rfl, rfl, rfl, rfl, .inl ⟨rfl, rfl, rfl⟩⟩)

theorem exec_moves {e : Event} (hf : Fits P R) (hp : Waiting P h.stack)
    (hquit : ∀ k new id, e = .wake (.accept k new id) → ∀ v, R v { v with waitAccept := false })
    (hsim : ∀ pkb seg i t s1, e = .segment pkb seg → tcpLookupSock cfg.env seg.iphdrSrc seg.iphdrDst
      seg.tcphdrSrc seg.tcphdrDst h.stack = .ok (some i, s1) → s1.sock i = some t → t.state = .synSent →
      Crossing seg → R (view t) { view t with state := .synRecv })
    (hrun : exec cfg e h = .ok (u, h')) : Chain R (shown h.stack) (shown h'.stack) := by
  have ha := hf.toAllows
  cases e with
  | socket protocol =>
    simp only [exec, socket] at hrun
    split_ifs at hrun
    · exact moves_pure _ _ _ _ hrun
    · exact Moves.bind outside_allocSocket.moves (fun k => Moves.bind
        (fun h id h' hnew => allocSock_acts cfg.toNet (onStack_inv hnew)) fun _ => (outside_setSocket k _).moves) _ _ _ hrun
  | bind k saddr sport => exact moves_bind cfg k saddr sport _ _ _ hrun
  | listen k backlog =>
    refine Moves.bind (outside_opened k).moves (fun id => ?_) _ _ _ hrun
    split_ifs
    · exact moves_pure ()
    · exact Moves.bind (Acts.Does.moves (does_tcpOpsListen id backlog)) fun _ => moves_pure ()
  | connect k daddr dport => exact moves_connect cfg k daddr dport _ _ _ hrun
  | accept k => exact accept_moves cfg hf hp hrun
  | read k len =>
    refine Moves.bind (outside_opened k).moves (fun id => ?_) _ _ _ hrun
    split_ifs
    · exact moves_pure ()
    · exact Moves.bind (outside_getRef k).moves fun _ => Moves.bind
        (Acts.Does.moves (still_tcpRecvBuf id len).does) fun r => moves_readEnds cfg ha k id len r
  | write k buf len =>
    refine Moves.bind (outside_opened k).moves (fun id => ?_) _ _ _ hrun
    split_ifs
    · exact moves_pure ()
    · exact Moves.bind (Acts.Does.moves (still_tcpSendBuf id buf len).does) fun _ => moves_pure ()
  | close k =>
    exact Moves.bind (outside_opened k).moves (fun _ => Moves.bind (outside_getSocket k).moves fun _ =>
      Moves.bind (outside_setSocket k _).moves fun _ => moves_freeSocket cfg ha k) _ _ _ hrun
  | wake c =>
    simp only [exec, wake] at hrun
    split_ifs at hrun
    · exact goOn_moves cfg (h := { h with calls := h.calls.erase c }) hf hp
        (fun k new id hc => hquit k new id (by rw [hc])) hrun
    · cases hrun
      exact .refl
  | segment pkb seg =>
    exact tcpRecv_acts ha.turn (fun i t s1 => hsim pkb seg i t s1 rfl) (onStack_inv hrun)
  | tick delta => exact does_tcpTimewaitTimer ha delta _ _ _ (onStack_inv hrun)

end Walk

end Tapip.Sockets.Inet
