import Tapip.Sockets.Acceptors
import Tapip.Sockets.Listeners
import Tapip.Tcp.Segmentation

/-! The wait objects that reads sleep on, and the segments that writes answer. -/

namespace Tapip.Sockets.Inet

open Foundation.Program Foundation.Hoare Tcp Tcp.Connection Tcp.Acts Tcp.Links Tcp.Text Tcp.Segmentation

variable {len : ℤ} {s' : Local} {v v' : View} {c : Call} {so : Socket} {r : Recv}

variable {net : Net} {i : ℕ} {s : Local}

section Receive

variable {w : Bool}

def Seated (i : ℕ) (w : Bool) (s : Local) : Prop := ∃ t, s.sock i = some t ∧ t.sk.recvWait = w

abbrev unfollowed (w : Bool) (e : Fault) : Prop := e = .nullPointer ∧ w = true

def Slept (w : Bool) (r : Recv) (_ : Local) : Prop := ∀ rlen, r = .sleeps rlen → w = true

lemma runs_returns (ret : ℤ) : Runs (unfollowed w) (pure (.returns ret)) s (Slept w) :=
  runs_pure fun _ hr => by cases hr

lemma runs_recvGoOn {len : ℤ} {loop : ℤ → Prog Local Recv} (hs : Seated i w s)
    (hloop : ∀ rlen s, Seated i w s → Runs (unfollowed w) (loop rlen) s (Slept w)) (rlen : ℤ) :
    Runs (unfollowed w) (recvGoOn net.env i len loop rlen) s (Slept w) := by
  obtain ⟨t, ht, hw⟩ := hs
  refine Runs.bind (runs_ok (getSk_run ht) ?_)
  split_ifs with hwait hseat
  · exact runs_pure fun _ _ => hw ▸ hseat
  · exact runs_error rfl fun hbad => hseat (hw.trans hbad.2)
  · exact Runs.bind (runs_ok (modifySk_run _ ht) (runs_returns rlen))
  · exact hloop rlen s ⟨t, ht, hw⟩

lemma runs_recvLoop (len : ℤ) (fuel : ℕ) (rlen : ℤ) (hs : Seated i w s) :
    Runs (unfollowed w) (recvLoop net.env i len fuel rlen) s (Slept w) := by
  induction fuel generalizing rlen s with
  | zero =>
    rw [recvLoop]
    split_ifs
    · exact runs_error rfl fun hbad => by cases hbad.1
    · exact runs_returns rlen
  | succ fuel ih =>
    rw [recvLoop]
    split_ifs
    · obtain ⟨t, ht, hw⟩ := hs
      refine Runs.bind (runs_ok (getSk_run ht) ?_)
      cases hread : tcpReadBuf t (len - rlen) with
      | error e =>
        refine Runs.bind (runs_error (show liftExcept (.error e) s = .error e from rfl) fun hbad => ?_)
        exact tcpReadBuf_ne (by simp [hbad.1]) t _ hread
      | ok p =>
        refine Runs.bind (runs_ok (show liftExcept (.ok p) s = .ok (p, s) from rfl) ?_)
        refine Runs.bind (runs_ok (modifySk_run _ ht) (runs_recvGoOn ⟨p.2, sock_put, ?_⟩ ?_ _))
        · rw [← hw]
          exact congrArg View.recvWait (view_tcpReadBuf hread)
        · exact fun rlen s hs => ih rlen hs
    · exact runs_returns rlen

lemma runs_tcpRecvBuf (len : ℤ) (hs : Seated i w s) : Runs (unfollowed w) (tcpRecvBuf net.env i len) s (Slept w) := by
  obtain ⟨t, ht, hw⟩ := hs
  refine Runs.bind (runs_ok (getSk_run ht) ?_)
  split_ifs
  · exact runs_recvLoop len _ 0 ⟨t, ht, hw⟩
  · exact runs_returns (-1)

lemma runs_tcpRecvBufWoken (len rlen : ℤ) (err : Bool) (hs : Seated i w s) :
    Runs (unfollowed w) (tcpRecvBufWoken net.env i len rlen err) s (Slept w) := by
  cases err with
  | true => exact runs_returns _
  | false => exact runs_recvGoOn hs (fun rlen s hs => runs_recvLoop len _ rlen hs) rlen

end Receive

section Send

variable {t : TcpSock} {buf : List UInt8}

lemma tcpSendBuf_null_iff (hlen : 0 < len) (ht : s.sock i = some t)
    (hd : t.sk.skDst = some rt) : tcpSendBuf net.env i buf len s = .error .nullPointer ↔
      sendable t.state = true ∧ toInt t.sndWnd ≤ 0 := by
  rw [tcpSendBuf, bind_run (getSk_run ht)]
  split_ifs with hst
  · rw [tcpSendText_run len ht hd]
    refine ⟨fun hrun => ⟨hst, ?_⟩, fun hwnd => ?_⟩
    · by_contra hpos
      have hn := node_of_sock ht
      have hloop : ∀ n fuel size, Effect seen (· = .nullPointer)
          (sendTextLoop net.env i buf n fuel size 0) (seen s) fun _ _ => True :=
        fun n fuel size => effect_sendTextLoop hn (by simp) (by simp) buf n (fun _ => trivial) fuel size 0
      cases hx : sendTextLoop net.env i buf (min len (toInt t.sndWnd)) (min len (toInt t.sndWnd)).toNat
          (net.mtu rt - 40) 0 s with
      | error e =>
        rw [bind_run_error hx, Except.error.injEq] at hrun
        exact (hloop _ _ _ s rfl).no_fault hrun hx
      | ok p =>
        have hm := (sendTextLoop_turns hx).reaches
        rw [bind_run hx, if_neg (by omega)] at hrun
        cases hrun
    · rw [SendWindow.sendTextLoop_done _ (by omega), bind_run (pure_run _)]
      rfl
  · simp [hst]

end Send

variable {k : ℕ} {h h' : Host} {α β : Type}

section Owners

variable {g g' : Shown}

def Rests (v v' : View) : Prop := v'.recvWait = v.recvWait ∧ (v.parent = .dead → v'.parent = .dead)

lemma fits_rests : Fits (fun _ => True) Rests where
  turn _ _ _ _ := ⟨rfl, id⟩
  shut _ _ := ⟨rfl, id⟩
  wait _ := ⟨rfl, id⟩
  orphan _ _ _ hp := ⟨rfl, fun hdead => by simp [hp] at hdead⟩
  dead _ _ := ⟨rfl, fun _ => rfl⟩

lemma Relinked.rests (hr : Relinked v v') : Rests v v' := by
  refine ⟨hr.recvWait, fun hdead => ?_⟩
  obtain hp | ⟨q, hq⟩ := hr.parent
  · rw [hp, hdead]
  · simp [hdead] at hq

def Waits (v : View) : Prop := v.recvWait = true

def Accepted (v : View) : Prop := v.parent = .dead

def Owned (v : View) : Prop := Waits v ∨ Accepted v

lemma Rests.waits (hr : Rests v v') (hw : Waits v) : Waits v' := hr.1.trans hw

lemma Rests.owned (hr : Rests v v') (ho : Owned v) : Owned v' := ho.imp hr.waits hr.2

lemma Kept.rests (hQ : ∀ {v v'}, Rests v v' → Q v → Q v') (hk : Kept Q i g) (hc : Chain Rests g g') : Kept Q i g' :=
  hk.chain (fun hr => hQ (hr.elim id Relinked.rests)) hc

def Call.Stands (g : Shown) : Call → Prop
  | .handOver _ _ i => Kept Accepted i g
  | .read _ i _ _ => Kept Waits i g
  | _ => True

lemma Call.Stands.chain (hs : c.Stands g) (hc : Chain Rests g g') : c.Stands g' := by
  cases c with
  | handOver k new i => exact Kept.rests (fun hr => hr.2) hs hc
  | read k i len rlen => exact Kept.rests Rests.waits hs hc
  | _ => trivial

structure Owners (h : Host) : Prop where
  sockets : ∀ k so i, h.sockets k = some so → so.sk = some i → Kept Owned i (shown h.stack)
  calls : ∀ c ∈ h.calls, c.Stands (shown h.stack)

structure Ties (h h' : Host) : Prop where
  sockets : ∀ k so' i, h'.sockets k = some so' → so'.sk = some i → ∃ so, h.sockets k = some so ∧ so.sk = some i
  calls : ∀ c ∈ h'.calls, c ∈ h.calls ∨ ∀ g, c.Stands g

lemma Ties.refl (h : Host) : Ties h h := ⟨fun _ so _ hk hi => ⟨so, hk, hi⟩, fun _ hc => .inl hc⟩

lemma Ties.trans (h₁₂ : Ties h1 h2) (h₂₃ : Ties h2 h3) : Ties h1 h3 := by
  refine ⟨fun k so i hk hi => ?_, fun c hc => ?_⟩
  · obtain ⟨so2, hk2, hi2⟩ := h₂₃.sockets k so i hk hi
    exact h₁₂.sockets k so2 i hk2 hi2
  · rcases h₂₃.calls c hc with hc | hc
    · exact h₁₂.calls c hc
    · exact .inr hc

lemma Owners.ties (ho : Owners h) (hc : Chain Rests (shown h.stack) (shown h'.stack)) (ht : Ties h h') : Owners h' := by
  refine ⟨fun k so i hk hi => ?_, fun c hmem => ?_⟩
  · obtain ⟨so0, hk0, hi0⟩ := ht.sockets k so i hk hi
    exact Kept.rests Rests.owned (ho.sockets k so0 i hk0 hi0) hc
  · rcases ht.calls c hmem with hold | hnew
    · exact (ho.calls c hold).chain hc
    · exact hnew _

lemma Owners.setSocket (ho : Owners h) (hso : ∀ i, so.sk = some i → Kept Owned i (shown h.stack)) :
    Owners (h.put k (some so)) := by
  refine ⟨fun j so' i hj hi => ?_, ho.calls⟩
  by_cases hjk : j = k
  · subst hjk
    obtain rfl : so = so' := by simpa using hj
    exact hso i hi
  · exact ho.sockets j so' i (by simpa [hjk] using hj) hi

lemma Owners.call (ho : Owners h) (hc : c.Stands (shown h.stack)) : Owners { h with calls := c :: h.calls } :=
  ⟨ho.sockets, List.forall_mem_cons.mpr ⟨hc, ho.calls⟩⟩

end Owners

section Walk

variable (cfg : Config)

lemma ties_update (ho : ∀ so' i, o = some so' → so'.sk = some i → ∃ so, h.sockets k = some so ∧ so.sk = some i) :
    Ties h { h.put k o with nextSocket := n } := by
  refine ⟨fun j so' i hj hi => ?_, fun c hc => .inl hc⟩
  by_cases hjk : j = k
  · subst hjk
    exact ho so' i (by simpa using hj) hi
  · exact ⟨so', by simpa [hjk] using hj, hi⟩

lemma ties_setSocket (hk : h.sockets k = some so) (hsk : so'.sk = so.sk) : Ties h (h.put k (some so')) := by
  refine ties_update fun so1 i hso hi => ⟨so, hk, ?_⟩
  cases hso
  rw [← hsk, hi]

lemma sequential_ties : Sequential fun (α : Type) (x : Prog Host α) => Respects Ties x :=
  sequential_respects Ties.refl Ties.trans

lemma ties_onStack (x : Prog Local α) : Respects Ties (onStack x) := by
  intro h a h' hrun
  cases hx : x h.stack with
  | error e => simp [onStack, hx, Except.map] at hrun
  | ok p =>
    simp only [onStack, hx, Except.map] at hrun
    cases hrun
    exact ⟨(Ties.refl h).sockets, (Ties.refl h).calls⟩

lemma ties_getSocket (k : ℕ) : Respects Ties (getSocket k) := by
  intro h so h' hrun
  rw [(getSocket_inv hrun).2]
  exact Ties.refl h

lemma ties_allocSocket : Respects Ties allocSocket := by
  intro h k h' hrun
  cases hrun
  refine ties_update fun so' i hso hi => ?_
  cases hso
  simp at hi

lemma ties_opened (k : ℕ) : Respects Ties (opened k) := by
  intro h i h' hrun
  rw [(opened_inv hrun).1]
  exact Ties.refl h

lemma ties_getRef (k : ℕ) : Respects Ties (getRef k) := by
  intro h u h' hrun
  obtain ⟨so, h1, hget, hset⟩ := bind_inv hrun
  obtain ⟨hk, rfl⟩ := getSocket_inv hget
  cases hset
  exact ties_setSocket hk rfl

lemma ties_freeSocket (k : ℕ) : Respects Ties (freeSocket cfg k) := by
  intro h u h' hrun
  obtain ⟨so, h1, hget, hrest⟩ := bind_inv hrun
  obtain ⟨hk, rfl⟩ := getSocket_inv hget
  split_ifs at hrest
  · obtain ⟨⟨⟩, h2, hclose, hset⟩ := bind_inv hrest
    cases hset
    exact (ties_onStack _ _ _ _ hclose).trans (ties_update fun so' i hso => by cases hso)
  · cases hrest
    exact ties_setSocket hk rfl

lemma ties_setPort (i : ℕ) (nport : UInt16) : Respects Ties (setPort cfg i nport) := by
  intro h b h' hrun
  obtain ⟨⟨⟨b', d⟩, s⟩, -, hret⟩ := bind_eq_ok.mp hrun
  cases hret
  exact ⟨(Ties.refl h).sockets, (Ties.refl h).calls⟩

lemma ties_sleep (hc : ∀ g, c.Stands g) : Respects Ties (sleep c) := by
  intro h u h' hrun
  cases hrun
  refine ⟨(Ties.refl h).sockets, fun c' hc' => ?_⟩
  rcases List.mem_cons.mp hc' with rfl | hold
  · exact .inr hc
  · exact .inl hold

lemma ties_erase (h : Host) (c : Call) : Ties h { h with calls := h.calls.erase c } :=
  ⟨(Ties.refl h).sockets, fun _ hc => .inl (List.mem_of_mem_erase hc)⟩

lemma ties_close (k : ℕ) : Respects Ties (close cfg k) := by
  refine sequential_ties.bind (ties_opened k) fun _ => ?_
  intro h u h' hrun
  obtain ⟨so, h1, hget, hrest⟩ := bind_inv hrun
  obtain ⟨hk, rfl⟩ := getSocket_inv hget
  obtain ⟨⟨⟩, h2, hset, hfree⟩ := bind_inv hrest
  cases hset
  have hdead : Ties h1 (h1.put k (some { so with dead := true })) :=
    ties_setSocket hk rfl
  exact hdead.trans (ties_freeSocket cfg k _ _ _ hfree)

end Walk

section Steps

variable {cfg : Config} {new : ℕ} {u : Unit}

lemma Owners.moves (ho : Owners h) (hm : Moves Rests x) (ht : Respects Ties x)
    (hrun : x h = .ok (a, h')) : Owners h' := ho.ties (hm _ _ _ hrun) (ht _ _ _ hrun)

lemma Owners.freeSocket (ho : Owners h) (hrun : freeSocket cfg k h = .ok (u, h')) : Owners h' :=
  ho.moves (moves_freeSocket cfg fits_rests.toAllows k) (ties_freeSocket cfg k) hrun

lemma Owners.socket (ho : Owners h) (hrun : socket protocol h = .ok (u, h')) : Owners h' := by
  simp only [Inet.socket] at hrun
  split_ifs at hrun
  · exact ho.moves (moves_pure ()) (sequential_ties.pure ()) hrun
  · obtain ⟨k, h1, halloc, hrest⟩ := bind_inv hrun
    obtain ⟨id, h2, hnew, hset⟩ := bind_inv hrest
    have h1' := ho.moves outside_allocSocket.moves ties_allocSocket halloc
    have hsock := onStack_inv hnew
    have h2' : Owners h2 := h1'.ties (allocSock_acts everywhere.toNet hsock) (ties_onStack _ _ _ _ hnew)
    cases hset
    obtain ⟨rfl, hstack⟩ := ok_inj hsock
    refine h2'.setSocket fun j hj => ?_
    cases hj
    rw [← hstack]
    refine ⟨Nat.lt_succ_self _, fun v hv => .inl ?_⟩
    obtain rfl : view newSock = v := by simpa [shown, Local.sock] using hv
    rfl

lemma Owners.acceptTurn (ho : Owners h) (hb : Below (shown h'.stack))
    (hrun : acceptTurn cfg k new i h = .ok (u, h')) : Owners h' := by
  have hmoves := acceptTurn_moves cfg fits_rests (fun _ _ _ _ _ _ _ => trivial) hrun
  obtain ⟨r, h1, haccept, hsleep⟩ := bind_inv hrun
  have hties := ties_onStack _ _ _ _ haccept
  cases r with
  | none => exact ho.ties hmoves (hties.trans (ties_sleep (c := .accept k new i) (fun _ => trivial) _ _ _ hsleep))
  | some newsk =>
    cases hsleep
    have h1' : Owners h1 := ho.ties hmoves hties
    refine h1'.call ?_
    obtain ⟨s0, j, t, hput, ⟨hnone, -⟩ | ⟨hj, hdead⟩⟩ := tcpAccept_inv (onStack_inv haccept)
    · simp at hnone
    · cases hj
      have hsock : (shown h1.stack).sock newsk = some (view t) := shown_sock (by rw [hput, sock_put])
      refine ⟨hb _ _ hsock, fun v hv => ?_⟩
      cases Option.mem_unique hsock hv
      exact hdead

lemma Owners.readEnds (ho : Owners h) (hr : ∀ rlen, r = .sleeps rlen → Kept Waits i (shown h.stack))
    (hrun : readEnds cfg k i len r h = .ok (u, h')) : Owners h' := by
  cases r with
  | returns ret => exact ho.freeSocket hrun
  | sleeps rlen =>
    cases hrun
    exact ho.call (hr rlen rfl)

lemma kept_of_recv (hb : Below (shown s)) (hx : Still x)
    (ht : s.sock i = some t) (hruns : Runs (unfollowed t.sk.recvWait) x s (Slept t.sk.recvWait))
    (hrun : x s = .ok (r, s')) (hr : r = .sleeps rlen) : Kept Waits i (shown s') := by
  rw [hx _ _ _ hrun]
  refine ⟨hb _ _ (shown_sock ht), fun v hv => ?_⟩
  cases Option.mem_unique (shown_sock ht) hv
  exact hruns.elim hrun rlen hr

lemma Owners.read (ho : Owners h) (hb : Below (shown h.stack)) (hrun : read cfg k len h = .ok (u, h')) : Owners h' := by
  obtain ⟨i, h1, hopen, hrest⟩ := bind_inv hrun
  obtain ⟨rfl, -⟩ := opened_inv hopen
  split_ifs at hrest
  · exact ho.moves (moves_pure ()) (sequential_ties.pure ()) hrest
  · obtain ⟨⟨⟩, h2, href, hrest⟩ := bind_inv hrest
    obtain ⟨r, h3, hrecv, hends⟩ := bind_inv hrest
    have h2' := ho.moves (outside_getRef k).moves (ties_getRef k) href
    have h3' := h2'.moves (Acts.Does.moves (still_tcpRecvBuf i len).does) (ties_onStack _) hrecv
    refine h3'.readEnds (fun rlen hr => ?_) hends
    obtain ⟨t, -, -, ht, -⟩ := getSk_bind_inv (onStack_inv hrecv)
    refine kept_of_recv ?_ (still_tcpRecvBuf i len) ht (runs_tcpRecvBuf len ⟨t, ht, rfl⟩)
      (onStack_inv hrecv) hr
    rwa [outside_getRef k _ _ _ href]

lemma Owners.goOn (ho : Owners h) (hc : c.Stands (shown h.stack))
    (hb : Below (shown h'.stack)) (hrun : goOn cfg c h = .ok (u, h')) : Owners h' := by
  cases c with
  | connect k i =>
    refine ho.ties (goOn_moves cfg fits_rests (fun _ _ _ _ _ _ _ => trivial) (fun _ _ _ hc => by cases hc) hrun) ?_
    exact sequential_ties.bind (ties_getSocket k) (fun _ => sequential_ties.bind (ties_onStack _)
      fun _ => ties_freeSocket cfg k) _ _ _ hrun
  | accept k new i =>
    obtain ⟨⟨⟩, h1, hset, hrest⟩ := bind_inv hrun
    obtain ⟨so, h2, hget, hlast⟩ := bind_inv hrest
    obtain ⟨-, rfl⟩ := getSocket_inv hget
    obtain ⟨t, ht, -⟩ := modifySk_inv (onStack_inv hset)
    have hchain := (modifySk_acts (R := Rests) ht ⟨rfl, id⟩ (onStack_inv hset)).1
    have h2' : Owners h2 := ho.ties hchain (ties_onStack _ _ _ _ hset)
    split_ifs at hlast
    · obtain ⟨⟨⟩, h3, hfree, hend⟩ := bind_inv hlast
      cases hfree
      refine Owners.freeSocket ?_ hend
      exact h2'.ties .refl (ties_update fun _ _ hso => by cases hso)
    · exact h2'.acceptTurn hb hlast
  | handOver k new i =>
    obtain ⟨⟨⟩, h1, hget, hrest⟩ := bind_inv hrun
    obtain ⟨⟨⟩, h2, hset, hfree⟩ := bind_inv hrest
    have hsame := still_getSock i _ _ _ (onStack_inv hget)
    have h1' : Owners h1 := ho.moves (Acts.Does.moves (still_getSock i).does) (ties_onStack _) hget
    cases hset
    refine Owners.freeSocket (h1'.setSocket fun j hj => ?_) hfree
    cases hj
    rw [hsame]
    exact ⟨hc.1, fun v hv => .inr (hc.2 v hv)⟩
  | read k i len rlen =>
    obtain ⟨so, h1, hget, hrest⟩ := bind_inv hrun
    obtain ⟨-, rfl⟩ := getSocket_inv hget
    obtain ⟨r, h2, hrecv, hends⟩ := bind_inv hrest
    have hstill := @still_tcpRecvBufWoken cfg.toNet i len rlen so.dead
    have h2' := ho.moves (Acts.Does.moves hstill.does) (ties_onStack _) hrecv
    refine h2'.readEnds (fun rlen' hr => ?_) hends
    rw [hstill _ _ _ (onStack_inv hrecv)]
    exact hc

lemma Owners.exec (ho : Owners h) (hb : Below (shown h.stack)) (hb' : Below (shown h'.stack))
    (hrun : exec cfg e h = .ok (u, h')) : Owners h' := by
  have hmoves := exec_moves cfg fits_rests (fun _ _ _ _ _ _ _ => trivial) (fun _ _ _ _ _ => ⟨rfl, id⟩)
    (fun _ _ _ _ _ _ _ _ _ _ => ⟨rfl, id⟩) hrun
  cases e with
  | socket protocol => exact ho.socket hrun
  | bind k saddr sport =>
    exact ho.ties hmoves (sequential_bind sequential_ties ties_opened ties_onStack (ties_setPort cfg) k saddr sport
      _ _ _ hrun)
  | listen k backlog =>
    refine ho.ties hmoves (sequential_ties.bind (ties_opened k) (fun i => ?_) _ _ _ hrun)
    split_ifs
    · exact sequential_ties.pure ()
    · exact sequential_ties.bind (ties_onStack _) fun _ => sequential_ties.pure ()
  | connect k daddr dport =>
    exact ho.ties hmoves (sequential_connect sequential_ties ties_opened ties_onStack (ties_setPort cfg) ties_getRef
      (fun k i => ties_sleep fun _ => trivial) k daddr dport _ _ _ hrun)
  | accept k =>
    obtain ⟨i, h1, hopen, hrest⟩ := bind_inv hrun
    obtain ⟨⟨⟩, h2, href, hrest⟩ := bind_inv hrest
    obtain ⟨new, h3, halloc, hturn⟩ := bind_inv hrest
    have h1' := ho.moves (outside_opened k).moves (ties_opened k) hopen
    have h2' := h1'.moves (outside_getRef k).moves (ties_getRef k) href
    exact (h2'.moves outside_allocSocket.moves ties_allocSocket halloc).acceptTurn hb' hturn
  | read k len => exact ho.read hb hrun
  | write k buf len =>
    refine ho.ties hmoves (sequential_ties.bind (ties_opened k) (fun i => ?_) _ _ _ hrun)
    split_ifs
    · exact sequential_ties.pure ()
    · exact sequential_ties.bind (ties_onStack _) fun _ => sequential_ties.pure ()
  | close k => exact ho.ties hmoves (ties_close cfg k _ _ _ hrun)
  | wake c =>
    simp only [Inet.exec, wake] at hrun
    split_ifs at hrun with hmem
    · have hcalls : Owners { h with calls := h.calls.erase c } := ho.ties .refl (ties_erase h c)
      exact hcalls.goOn (ho.calls c hmem) hb' hrun
    · cases hrun
      exact ho
  | segment pkb seg => exact ho.ties hmoves (ties_onStack _ _ _ _ hrun)
  | tick delta => exact ho.ties hmoves (ties_onStack _ _ _ _ hrun)

lemma Reached.owners (hr : Reached ok h) : Owners h := by
  induction hr with
  | boot =>
    refine ⟨fun k so i hk => ?_, fun c hc => ?_⟩
    · simp [Inet.boot] at hk
    · simp [Inet.boot] at hc
  | step hr hok hrun ih => exact ih.exec hr.socks_below (hr.step hok hrun).socks_below hrun

end Steps

section Pointers

/-- A read is on a socket that `_accept` has not returned; a write finds room in the window. -/
def Guarded (h : Host) : Event → Prop
  | .read k _ => ∀ so i t, h.sockets k = some so → so.sk = some i → h.stack.sock i = some t → t.parent ≠ .dead
  | .write k _ _ => ∀ so i t, h.sockets k = some so → so.sk = some i → h.stack.sock i = some t →
      sendable t.state = true → 0 < toInt t.sndWnd
  | _ => True

/-- The wait object that a read sleeps on is there, and so is the segment of every pointer that a write
follows: of the null pointers of `tcp_send_text` only the one of the route is left. -/
def Follows (h : Host) : Event → Prop
  | .read k len => ∀ (net : Net) so i, h.sockets k = some so → so.sk = some i →
      tcpRecvBuf net.env i len h.stack ≠ .error .nullPointer
  | .wake (.read k i len rlen) => .read k i len rlen ∈ h.calls → ∀ (net : Net) err,
      tcpRecvBufWoken net.env i len rlen err h.stack ≠ .error .nullPointer
  | .write k buf len => ∀ (net : Net) so i t, h.sockets k = some so → so.sk = some i → 0 < len →
      h.stack.sock i = some t → t.sk.skDst ≠ none →
        tcpSendBuf net.env i buf len h.stack ≠ .error .nullPointer
  | _ => True

lemma recv_of_gone {net : Net} {s : Local} (hs : s.sock i = none) : (getSk net.env i >>= f) s ≠ .error .nullPointer := by
  have hget : getSk net.env i s = .error .useAfterFree := by
    simp [getSk, Net.env, show s.tcp.socks i = none from hs]
  rw [bind_run_error hget]
  simp

theorem guarded_follows {e : Event} (hr : Reached (fun _ _ => True) h) (hg : Guarded h e) : Follows h e := by
  have ho := hr.owners
  cases e with
  | read k len =>
    intro net so i hk hi
    cases ht : h.stack.sock i with
    | none => exact recv_of_gone ht
    | some t =>
      have hw : t.sk.recvWait = true :=
        ((ho.sockets k so i hk hi).2 _ (shown_sock ht)).resolve_right (hg so i t hk hi ht)
      exact (runs_tcpRecvBuf len ⟨t, ht, hw⟩).no_fault ⟨rfl, rfl⟩
  | write k buf len =>
    intro net so i t hk hi hlen ht hd
    obtain ⟨rt, hrt⟩ := Option.ne_none_iff_exists'.mp hd
    rw [Ne, tcpSendBuf_null_iff hlen ht hrt]
    rintro ⟨hst, hwnd⟩
    exact absurd (hg so i t hk hi ht hst) (by omega)
  | wake c =>
    cases c with
    | read k i len rlen =>
      intro hmem net err
      cases ht : h.stack.sock i with
      | none =>
        cases err with
        | true => simp [tcpRecvBufWoken]
        | false => exact recv_of_gone ht
      | some t =>
        have hw : t.sk.recvWait = true := (ho.calls _ hmem).2 _ (shown_sock ht)
        exact (runs_tcpRecvBufWoken len rlen err ⟨t, ht, hw⟩).no_fault ⟨rfl, rfl⟩
    | _ => trivial
  | _ => trivial

theorem guarded_follows_dialled : ∃ h t, Reached (fun _ _ => True) h ∧ h.sockets 0 = some ⟨some 0, false, 1⟩ ∧
    h.stack.sock 0 = some t ∧ t.state = .established ∧ t.sk.skDst ≠ none ∧
    Follows h (.read 0 8) ∧ Follows h (.write 0 [7] 1) := by
  obtain ⟨h, hr, hk, t, ht, hst, hd, hp, hwnd⟩ := exists_reached (fun _ _ => True) dialled
    (P := fun h => h.sockets 0 = some ⟨some 0, false, 1⟩ ∧ ∃ t, h.stack.sock 0 = some t ∧
      t.state = .established ∧ t.sk.skDst ≠ none ∧ t.parent ≠ .dead ∧ 0 < toInt t.sndWnd) (by decide +kernel)
  have hsock : ∀ so i t', h.sockets 0 = some so → so.sk = some i → h.stack.sock i = some t' → t' = t := by
    intro so i t' hk' hi ht'
    cases Option.mem_unique hk hk'
    cases hi
    exact Option.mem_unique ht' ht
  refine ⟨h, t, hr, hk, ht, hst, hd, ?_, ?_⟩
  · refine guarded_follows hr fun so i t' hk' hi ht' => ?_
    rwa [hsock so i t' hk' hi ht']
  · refine guarded_follows hr fun so i t' hk' hi ht' _ => ?_
    rwa [hsock so i t' hk' hi ht']

def taken : List Event :=
  attending ++ [.segment noPkb (bare 501 12345680), .wake (.accept 0 1 0), .wake (.handOver 0 1 1)]

def shut : List Event :=
  [.socket 6, .connect 0 0x0200000a 0x5000, .segment noPkb { bareSyn 500 12345680 with wnd := 0 },
    .wake (.connect 0 0)]

/-- A read on the socket that `_accept` has returned finds no wait object; a write into a window of 0
answers no segment. -/
theorem accepted_read_and_probe : (∃ h, Reached (fun _ _ => True) h ∧ h.sockets 1 = some ⟨some 1, false, 1⟩ ∧
      faults .nullPointer (exec everywhere (.read 1 8) h) = true ∧ ¬Follows h (.read 1 8)) ∧
    ∃ h, Reached (fun _ _ => True) h ∧ h.sockets 0 = some ⟨some 0, false, 1⟩ ∧
      faults .nullPointer (exec everywhere (.write 0 [7] 1) h) = true ∧ ¬Follows h (.write 0 [7] 1) := by
  constructor
  · obtain ⟨h, hr, hk, hexec, hrecv⟩ := exists_reached (fun _ _ => True) taken
      (P := fun h => h.sockets 1 = some ⟨some 1, false, 1⟩ ∧
        faults .nullPointer (exec everywhere (.read 1 8) h) = true ∧
        faults .nullPointer (tcpRecvBuf everywhere.env 1 8 h.stack) = true) (by decide +kernel)
    exact ⟨h, hr, hk, hexec, fun hf => hf _ _ 1 hk rfl (faults_iff.mp hrecv)⟩
  · obtain ⟨h, hr, hk, hexec, ⟨t, ht, hd⟩, hsend⟩ := exists_reached (fun _ _ => True) shut
      (P := fun h => h.sockets 0 = some ⟨some 0, false, 1⟩ ∧
        faults .nullPointer (exec everywhere (.write 0 [7] 1) h) = true ∧
        (∃ t, h.stack.sock 0 = some t ∧ t.sk.skDst ≠ none) ∧
        faults .nullPointer (tcpSendBuf everywhere.env 0 [7] 1 h.stack) = true) (by decide +kernel)
    exact ⟨h, hr, hk, hexec, fun hf => hf _ _ 0 t hk rfl (by decide) ht hd (faults_iff.mp hsend)⟩

end Pointers

end Tapip.Sockets.Inet
