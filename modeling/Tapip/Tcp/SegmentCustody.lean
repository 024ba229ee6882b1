import Tapip.Tcp.Custody
import Tapip.Tcp.Replies

/-! The reference to a segment on its way through the state machine of TCP. -/

namespace Tapip.Tcp.SegmentCustody

open Foundation.Program Foundation.Tally Foundation.Cost Net Net.Pkb Net.Custody Ip.In Ip.Custody Custody

variable {α : Type} {b : Bool} {t' : TcpSock} {r : Option ℕ}

variable {busy busy' : ℕ → ℤ} {netIn : NetIn} {s s' : Stack} {id : ℕ} {t : TcpSock}

variable {seg : TcpSegment}

section Ack

def SameStates (s s' : Stack) : Prop :=
  ∀ i t', s'.tcp.socks i = some t' → ∃ t, s.tcp.socks i = some t ∧ t'.state = t.state

lemma SameStates.refl (s : Stack) : SameStates s s := fun _ t ht => ⟨t, ht, rfl⟩

lemma SameStates.bind
    (hx : Respects SameStates x) (hf : ∀ a, Respects SameStates (f a)) : Respects SameStates (x >>= f) := by
  refine Respects.bind (fun hab hbc i t ht => ?_) hx hf
  obtain ⟨t1, ht1, h1⟩ := hbc i t ht
  obtain ⟨t2, ht2, h2⟩ := hab i t1 ht1
  exact ⟨t2, ht2, h1.trans h2⟩

lemma sameStates_reads (h : Respects Eq x) : Respects SameStates x := by
  intro s a s' hrun
  cases h s a s' hrun
  exact .refl s

lemma sameStates_modifySk (hf : ∀ t, (f t).state = t.state) : Respects SameStates (modifySk (stackEnv netIn) id f) := by
  intro s u s' hrun i t' ht'
  obtain ⟨t, ht, rfl⟩ := modifySk_run hrun
  by_cases hi : i = id
  · subst hi
    obtain rfl := by simpa using ht'
    exact ⟨t, ht, hf t⟩
  · rw [put_socks_of_ne hi] at ht'
    exact ⟨t', ht', rfl⟩

lemma reads_pure {a : α} : Respects Eq (pure a : Prog Stack α) := Respects.pure (fun _ => rfl) a

lemma reads_wakeUp : Respects Eq (wakeUp b : Prog Stack Unit) := by
  rw [wakeUp]
  split_ifs
  · exact reads_pure
  · exact reads_fault

lemma sameStates_tcpSynrecvAck : Respects SameStates (tcpSynrecvAck (stackEnv netIn) id) := by
  refine SameStates.bind (sameStates_reads reads_getSk) fun t => ?_
  split
  · exact sameStates_reads reads_fault
  · exact sameStates_reads reads_fault
  · refine SameStates.bind (sameStates_reads reads_getSk) fun p => ?_
    split_ifs
    · exact sameStates_reads reads_pure
    · exact sameStates_reads reads_pure
    · refine SameStates.bind (sameStates_modifySk fun _ => rfl) fun _ => ?_
      refine SameStates.bind (sameStates_modifySk fun _ => rfl) fun _ => ?_
      refine SameStates.bind (sameStates_reads reads_getSk) fun _ => ?_
      exact SameStates.bind (sameStates_reads reads_wakeUp) fun _ => sameStates_reads reads_pure

lemma keeps_tcpSynrecvAck : Keeps busy (tcpSynrecvAck (stackEnv netIn) id) s := by
  refine CostsAt.seq (keeps_of_reads reads_getSk) fun t s1 _ => ?_
  split
  · exact keeps_of_reads reads_fault
  · exact keeps_of_reads reads_fault
  · refine CostsAt.seq (keeps_of_reads reads_getSk) fun p s2 _ => ?_
    split_ifs
    · exact costsAt_pure rfl
    · exact costsAt_pure rfl
    · refine CostsAt.seq (keeps_modifySk fun t => ⟨fun h => h, le_rfl, rfl⟩) fun _ s3 _ => ?_
      refine CostsAt.seq (keeps_modifySk fun t => ⟨fun h => h, le_rfl, rfl⟩) fun _ s4 _ => ?_
      refine CostsAt.seq (keeps_of_reads reads_getSk) fun _ s5 _ => ?_
      exact CostsAt.seq (keeps_of_reads reads_wakeUp) fun _ _ _ => costsAt_pure rfl

lemma mild_of_state (hst : opening t'.state = false) (hsk : t'.sk = t.sk)
    (hb : t'.bhashed = t.bhashed) (hr : t'.rcvReass = t.rcvReass) : Mild t t' := by
  refine ⟨fun h => ?_, ?_, ?_⟩
  · rw [hst] at h
    cases h
  · simp only [spare, hsk, hb, le_refl]
  · simp only [waiting, hsk, hr]

lemma keeps_close : Keeps busy (modifySk (stackEnv netIn) id fun t => { t with state := .closed }) s :=
  keeps_modifySk fun _ => mild_of_state rfl rfl rfl rfl

lemma keeps_tcpSetTimewaitTimer : Keeps busy (tcpSetTimewaitTimer (stackEnv netIn) id) s := by
  refine CostsAt.seq (keeps_modifySk fun _ => mild_of_state rfl rfl rfl rfl) fun _ s1 _ => ?_
  exact CostsAt.seq (keeps_modifyWorld (fun _ => rfl) fun _ => rfl) fun _ _ _ => keeps_getSock

lemma mild_tcpUpdateWindow (t : TcpSock) : Mild t (tcpUpdateWindow t seg) := by
  rw [tcpUpdateWindow]
  split_ifs
  · exact ⟨fun h => h, le_rfl, rfl⟩
  · exact ⟨fun h => h, le_rfl, rfl⟩

def textSide (t : TcpSock) : TcpState × UInt32 × List TcpReassHead := (t.state, t.rcvNxt, t.rcvReass)

lemma textSide_tcpUpdateWindow (t : TcpSock) (seg : TcpSegment) : textSide (tcpUpdateWindow t seg) = textSide t := by
  rw [tcpUpdateWindow]
  split_ifs <;> rfl

lemma window_run (ht : s.tcp.socks id = some t) (hrun : (do
      modifySk (stackEnv netIn) id (fun t => tcpUpdateWindow t seg)
      return true : Prog Stack Bool) s = .ok (b, s')) :
    s'.tcp.socks id = some (tcpUpdateWindow t seg) := by
  obtain ⟨u, s1, hmod, hrun⟩ := bind_inv hrun
  obtain ⟨t1, ht1, rfl⟩ := modifySk_run hmod
  cases Option.mem_unique ht ht1
  cases hrun
  exact put_socks_self

lemma checkAck_text (ht : s.tcp.socks id = some t)
    (hrun : checkAck (stackEnv netIn) id seg s = .ok (true, s')) (ht' : s'.tcp.socks id = some t')
    (hr : receives t'.state = true) : opening t'.state = true ∨
      receives t.state = true ∧ opening t.state = false ∧ t'.rcvNxt = t.rcvNxt ∧ t'.rcvReass = t.rcvReass := by
  obtain ⟨step, he⟩ := checkAck_eq (stackEnv netIn) id seg
  rw [he] at hrun
  obtain ⟨t0, s0, hget, hrun⟩ := bind_inv hrun
  obtain ⟨rfl, ht0⟩ := getSk_run hget
  cases Option.mem_unique ht ht0
  obtain ⟨x, hx, hrun⟩ : ∃ x, AckStep (stackEnv netIn) id seg t x ∧ x s0 = .ok (true, s') := ⟨_, (step t).2, hrun⟩
  have hsame : textSide t' = textSide t → opening t'.state = true ∨
      receives t.state = true ∧ opening t.state = false ∧ t'.rcvNxt = t.rcvNxt ∧ t'.rcvReass = t.rcvReass := by
    intro hside
    obtain ⟨hst, hnxt, hreass⟩ : t'.state = t.state ∧ t'.rcvNxt = t.rcvNxt ∧ t'.rcvReass = t.rcvReass := by
      simpa [textSide] using hside
    cases ho : opening t.state with
    | true => exact .inl (by rw [hst, ho])
    | false => exact .inr ⟨by rw [← hst, hr], rfl, hnxt, hreass⟩
  have hwin : ∀ {s1 : Stack} {t1 : TcpSock}, s1.tcp.socks id = some t1 →
      (do modifySk (stackEnv netIn) id (fun t => tcpUpdateWindow t seg)
          return true : Prog Stack Bool) s1 = .ok (true, s') → textSide t' = textSide t1 := by
    intro s1 t1 ht1 hwindow
    cases Option.mem_unique ht' (window_run ht1 hwindow)
    exact textSide_tcpUpdateWindow _ _
  cases hx with
  | completes =>
    obtain ⟨b, s1, -, hrun⟩ := bind_inv hrun
    split_ifs at hrun
    · obtain ⟨u, s2, hmod, hrun⟩ := bind_inv hrun
      cases hrun
      obtain ⟨t1, -, rfl⟩ := modifySk_run hmod
      obtain rfl := by simpa using ht'
      exact .inl rfl
    · cases hrun
  | outside => exact absurd hrun (bind_ne nofun)
  | forward =>
    obtain ⟨u, s1, hmod, hrun⟩ := bind_inv hrun
    obtain ⟨t1, ht1, rfl⟩ := modifySk_run hmod
    cases Option.mem_unique ht ht1
    have hside := hwin put_socks_self hrun
    exact hsame hside
  | finWait1 hst =>
    obtain ⟨u, s1, hmod, hrun⟩ := bind_inv hrun
    obtain ⟨t1, ht1, rfl⟩ := modifySk_run hmod
    cases Option.mem_unique ht ht1
    obtain ⟨v, s2, hfin, hrun⟩ := bind_inv hrun
    obtain ⟨t2, ht2, rfl⟩ := modifySk_run hfin
    cases Option.mem_unique put_socks_self ht2
    have hside := hwin put_socks_self hrun
    simp only [textSide, Prod.mk.injEq] at hside
    rw [hst]
    exact .inr ⟨rfl, rfl, hside.2.1, hside.2.2⟩
  | closing => exact absurd hrun (bind_ne fun _ _ => bind_ne nofun)
  | lastAck => exact absurd hrun (bind_ne fun _ _ => bind_ne fun _ _ => bind_ne fun _ _ => bind_ne nofun)
  | beyond => cases hrun
  | old => exact hsame (hwin ht hrun)
  | other =>
    cases hrun
    cases Option.mem_unique ht ht'
    exact hsame rfl

variable (hpos : 0 ≤ busy) (hnet : Takes busy netIn)

include hpos hnet

lemma keeps_checkAck : Keeps busy (checkAck (stackEnv netIn) id seg) s := by
  have hwindow : ∀ s, Keeps busy (do
      modifySk (stackEnv netIn) id (fun t => tcpUpdateWindow t seg)
      return true : Prog Stack Bool) s := fun s =>
    CostsAt.seq (keeps_modifySk mild_tcpUpdateWindow) fun _ _ _ => costsAt_pure rfl
  have hack : ∀ s, Keeps busy (modifySk (stackEnv netIn) id fun t => { t with sndUna := seg.ack }) s :=
    fun s => keeps_modifySk fun _ => ⟨fun h => h, le_rfl, rfl⟩
  obtain ⟨step, he⟩ := checkAck_eq (stackEnv netIn) id seg
  rw [he]
  refine CostsAt.seq (keeps_of_reads reads_getSk) fun t s1 hget => ?_
  obtain ⟨rfl, ht⟩ := getSk_run hget
  obtain ⟨x, hx⟩ := step t
  cases hx with
  | completes hst =>
    refine CostsAt.seq keeps_tcpSynrecvAck fun b s2 hrun => ?_
    split_ifs
    · refine CostsAt.seq (keepsAt_modifySk fun t' ht' => ⟨fun _ => ?_, le_rfl, rfl⟩) fun _ _ _ =>
        costsAt_pure rfl
      obtain ⟨t0, ht0, hsame⟩ := sameStates_tcpSynrecvAck s1 b s2 hrun id t' ht'
      cases Option.mem_unique ht ht0
      rw [hsame, hst]
      rfl
    · exact costsAt_pure rfl
  | outside => exact CostsAt.seq (keeps_tcpSendReset hnet) fun _ _ _ => costsAt_pure rfl
  | forward => exact (hack s1).seq fun _ s2 _ => hwindow s2
  | finWait1 =>
    refine (hack s1).seq fun _ s2 _ => ?_
    exact CostsAt.seq (keeps_modifySk fun _ => mild_of_state rfl rfl rfl rfl) fun _ s3 _ => hwindow s3
  | closing =>
    refine (hack s1).seq fun _ s2 _ => ?_
    exact CostsAt.seq keeps_tcpSetTimewaitTimer fun _ _ _ => costsAt_pure rfl
  | lastAck =>
    refine (hack s1).seq fun _ s2 _ => keeps_close.seq fun _ s3 _ => ?_
    refine (keeps_tcpUnhash hpos).seq fun _ s4 _ => ?_
    exact (keeps_tcpUnbhash hpos).seq fun _ _ _ => costsAt_pure rfl
  | old => exact hwindow s1
  | beyond | other => exact costsAt_pure rfl

end Ack

variable {pkb : Pkbuf} {a : ℕ}

section Arrive

open Text
open Connection (hasText)

lemma waiting_tally (t : TcpSock) :
    tally Pkbuf.pkAddr (waiting t) = entries t.rcvReass + tally Pkbuf.pkAddr t.sk.recvQueue := by
  rw [waiting, tally_append, entries]

lemma needed_of_tcpRecvText {r : Received} (h : tcpRecvText t seg pkb = .ok r)
    (ho : opening t.state = true ∨ t.rcvReass = [] ∧ seg.seq ≤ t.rcvNxt) (hn : needed r.tsk = true) :
    needed t = true := by
  rcases ho with ho | ⟨hq, hseq⟩
  · exact needed_iff.mpr (.inl ho)
  · have hempty := (Replies.tcpRecvText_inSequence hq hseq h).1
    obtain ⟨_, _, _, _, _, _, _, he⟩ := tcpRecvText_receives h
    have hsk : r.tsk.sk = t.sk := by rw [he]
    have hst : r.tsk.state = t.state := by rw [he]
    rw [needed_iff] at hn ⊢
    simpa only [waiting, hempty, hq, hsk, hst] using hn

lemma costs_checkText (ha : pkb.pkAddr = a)
    (ho : ∀ t, s.tcp.socks id = some t → receives t.state = true → hasText seg = true →
      opening t.state = true ∨ t.rcvReass = [] ∧ seg.seq ≤ t.rcvNxt) :
    CostsAt (Moves busy) (fun _ => lent a) (checkText (stackEnv netIn) id seg pkb) s := by
  refine CostsAt.seq (keeps_of_reads reads_getSk) fun t s1 hget => ?_
  obtain ⟨rfl, ht⟩ := getSk_run hget
  split_ifs with htext
  · rw [Bool.and_eq_true] at htext
    refine CostsAt.seq (keeps_of_reads fun _ _ _ h => (liftExcept_inv h).1.symm) fun r s2 hlift => ?_
    obtain ⟨rfl, hr⟩ := liftExcept_inv hlift
    have hset := tcpRecvText_settles hr
    obtain ⟨_, _, _, _, _, _, _, he⟩ := tcpRecvText_receives hr
    have hsk : r.tsk.sk = t.sk := by rw [he]
    have hb : r.tsk.bhashed = t.bhashed := by rw [he]
    rw [Settles, ha] at hset
    generalize hlink : (if r.queued = true then one a else 0) = link at hset
    have hput : CostsAt (Moves busy)
        (fun _ => (-(link - tally Pkbuf.pkAddr r.freed), link - tally Pkbuf.pkAddr r.freed))
        (modifySk (stackEnv netIn) id fun _ => r.tsk) s2 := by
      intro u s' hrun
      obtain ⟨t1, ht1, rfl⟩ := modifySk_run hrun
      cases Option.mem_unique ht ht1
      refine moves_put ht (needed_of_tcpRecvText hr (ho t ht htext.1 htext.2)) ?_ ?_
      · simp only [spare, hsk, hb, le_refl]
      · rw [waiting_tally, waiting_tally, hsk, eq_sub_of_add_eq hset]
        abel
    have hall : CostsAt (Moves busy) (fun _ => (0, link - tally Pkbuf.pkAddr r.freed)) (do
        modifySk (stackEnv netIn) id fun _ => r.tsk
        if r.queued then (stackEnv netIn).getPkb pkb
        r.freed.forM (stackEnv netIn).freePkb
        return r.seg) s2 := by
      refine hput.bind fun _ s3 _ => ?_
      dsimp only
      split_ifs with hq
      · refine CostsAt.bind costs_getPkb fun _ s4 _ => ?_
        refine CostsAt.bind (costs_freePkbs r.freed) fun _ s5 _ => costsAt_pure (Prod.ext ?_ ?_)
        · rw [← hlink, if_pos hq]
          simp [gotten, ha]
        · simp [gotten]
      · refine CostsAt.bind (costs_freePkbs r.freed) fun _ s4 _ => costsAt_pure (Prod.ext ?_ ?_)
        · rw [← hlink, if_neg hq]
          simp
        · simp
    refine hall.mono fun _ _ hm => hm.le rfl ?_
    refine (sub_le_self _ (tally_nonneg _ _)).trans ?_
    rw [← hlink]
    split_ifs
    · exact le_rfl
    · exact one_nonneg a
  · intro r s' hrun
    cases hrun
    exact Shifts.lent (Graded.refl _) a

lemma keeps_checkFin : Keeps busy (checkFin (stackEnv netIn) id seg) s := by
  rw [checkFin]
  split_ifs
  · refine CostsAt.seq (keeps_of_reads reads_getSk) fun t s1 _ => ?_
    have hlast : ∀ s, Keeps busy
        (modifySk (stackEnv netIn) id fun t => { t with rcvNxt := seg.seq + 1, ackNow := true }) s :=
      fun s => keeps_modifySk fun _ => ⟨fun h => h, le_rfl, rfl⟩
    dsimp only
    split
    · exact CostsAt.seq (keeps_modifySk fun _ => mild_of_state rfl rfl rfl rfl) fun _ s2 _ => hlast s2
    · exact CostsAt.seq (keeps_modifySk fun _ => mild_of_state rfl rfl rfl rfl) fun _ s2 _ => hlast s2
    · exact CostsAt.seq (keeps_modifySk fun _ => mild_of_state rfl rfl rfl rfl) fun _ s2 _ => hlast s2
    · exact CostsAt.seq (keeps_modifySk fun _ => ⟨fun h => h, le_rfl, rfl⟩) fun _ s2 _ => hlast s2
    · exact keeps_tcpSetTimewaitTimer.seq fun _ s2 _ => hlast s2
    · exact hlast s1
  · exact costsAt_pure rfl

lemma keeps_checkRst (hpos : 0 ≤ busy) : Keeps busy (checkRst (stackEnv netIn) id) s := by
  have hrest : ∀ s, Keeps busy (do
      modifySk (stackEnv netIn) id (fun t => { t with state := .closed })
      tcpUnhash (stackEnv netIn) id
      tcpUnbhash (stackEnv netIn) id) s := fun s =>
    keeps_close.seq fun _ _ _ => (keeps_tcpUnhash hpos).seq fun _ _ _ => keeps_tcpUnbhash hpos
  refine CostsAt.seq (keeps_of_reads reads_getSk) fun t s1 _ => ?_
  dsimp only
  split_ifs
  · exact (keeps_tcpUnhash hpos).seq fun _ s2 _ => hrest s2
  · exact hrest s1

/-- What a segment for a sock must not be for its buffer to be accounted for. -/
def regularFor (t : TcpSock) (seg : TcpSegment) : Bool :=
  match t.state with
  | .closed | .listen => true
  | .synSent => !seg.syn || seg.rst || seg.ackBit || decide (t.iss < t.sndUna)
  | _ =>
    if seqCheck seg t && !seg.rst then
      -- no SYN in the window, and no gap in the text for a sock that its user has closed
      !seg.syn && (!receives t.state || opening t.state || !hasText seg ||
        (t.rcvReass.isEmpty && decide (seg.seq ≤ t.rcvNxt)))
    else true

variable (hpos : 0 ≤ busy) (hnet : Takes busy netIn)

section Send

include hnet

lemma costs_drop (ha : pkb.pkAddr = a) :
    CostsAt (Moves busy) (fun _ => -gotten a) (drop (stackEnv netIn) id seg pkb) s := by
  subst ha
  refine CostsAt.seq (keeps_of_reads reads_getSk) fun t s1 _ => ?_
  dsimp only
  split_ifs
  · exact (keeps_tcpSendAck hnet).seq fun _ _ _ => costs_freePkb
  · exact costs_freePkb

lemma spends_drop (ha : pkb.pkAddr = a) : Spends busy a (drop (stackEnv netIn) id seg pkb) s :=
  (costs_drop hnet ha).mono fun _ _ => Shifts.spent_of_free

lemma spends_tcpClosed (ha : pkb.pkAddr = a) : Spends busy a (tcpClosed (stackEnv netIn) g pkb seg) s := by
  rw [tcpClosed]
  dsimp only
  split_ifs
  · exact (keeps_tcpSendReset hnet).seq fun _ _ _ => spends_freePkb ha
  · exact spends_freePkb ha

lemma spends_tcpSynsent (ha : pkb.pkAddr = a) (ht : s.tcp.socks id = some t) (hst : t.state = .synSent)
    (hreg : regularFor t seg = true) : Spends busy a (tcpSynsent (stackEnv netIn) pkb seg id) s := by
  refine CostsAt.seq (keeps_of_reads reads_getSk) fun t1 s1 hget => ?_
  obtain ⟨rfl, ht1⟩ := getSk_run hget
  cases Option.mem_unique ht ht1
  dsimp only
  split_ifs with hack hrst hbit hsyn hopen
  · exact (keeps_tcpSendReset hnet).seq fun _ _ _ => spends_freePkb ha
  · exact keeps_close.seq fun _ _ _ => spends_freePkb ha
  · exact spends_freePkb ha
  · refine CostsAt.seq (keeps_modifySk fun _ => ⟨fun h => h, le_rfl, rfl⟩) fun _ s2 hmod => ?_
    obtain ⟨t1, ht1, rfl⟩ := modifySk_run hmod
    cases Option.mem_unique ht ht1
    refine CostsAt.seq (keepsAt_modifySk fun t' ht' => ⟨fun _ => ?_, le_rfl, rfl⟩) fun _ s3 _ => ?_
    · obtain rfl := by simpa using ht'
      show opening t.state = true
      rw [hst]
      rfl
    refine (keeps_tcpSendAck hnet).seq fun _ s4 _ => ?_
    refine CostsAt.seq (keeps_of_reads reads_getSk) fun _ s5 _ => ?_
    exact CostsAt.seq (keeps_of_reads reads_wakeUp) fun _ _ _ => spends_freePkb ha
  · -- a bare SYN is ruled out
    exfalso
    simp only [regularFor, hst, hsyn, Bool.not_true, Bool.false_or, Bool.or_eq_true, decide_eq_true_eq] at hreg
    apply hopen
    cases hbit : seg.ackBit with
    | true =>
      simp only [hbit, Bool.true_and, Bool.or_eq_true, decide_eq_true_eq, not_or] at hack
      simpa only [synsentSyn, hbit, if_true] using UInt32.not_le.mp hack.1
    | false =>
      simp only [hrst, hbit, or_false, false_or, Bool.false_eq_true] at hreg
      simpa only [synsentSyn, hbit, Bool.false_eq_true, if_false] using hreg
  · exact spends_freePkb ha

end Send

section Drop

include hpos hnet

lemma spends_tcpArrive (ha : pkb.pkAddr = a) (ht : s.tcp.socks id = some t)
    (hsyn : seqCheck seg t = true → seg.rst = false → seg.syn = false)
    (htext : seqCheck seg t = true → seg.rst = false → receives t.state = true → hasText seg = true →
      opening t.state = true ∨ t.rcvReass = [] ∧ seg.seq ≤ t.rcvNxt) :
    Spends busy a (tcpArrive (stackEnv netIn) pkb seg id) s := by
  refine CostsAt.seq (keeps_of_reads reads_getSk) fun t1 s1 hget => ?_
  obtain ⟨rfl, ht1⟩ := getSk_run hget
  cases Option.mem_unique ht ht1
  dsimp only
  split_ifs with hseq hrst hrst hbit
  · exact CostsAt.seq (keeps_modifySk fun _ => ⟨fun h => h, le_rfl, rfl⟩) fun _ _ _ => spends_drop hnet ha
  · exact spends_drop hnet ha
  · exact (keeps_checkRst hpos).seq fun _ _ _ => spends_drop hnet ha
  all_goals
    have hseq' : seqCheck seg t = true := by simpa using hseq
    have hrst' : seg.rst = false := by simpa using hrst
    rw [checkSyn, if_neg (by simp [hsyn hseq' hrst'])]
    refine CostsAt.seq (costsAt_pure rfl) fun _ s2 hpure => ?_
    cases hpure
  · exact spends_drop hnet ha
  · refine (keeps_checkAck hpos hnet).seq fun b s3 hrun => ?_
    cases b with
    | false => exact spends_drop hnet ha
    | true =>
      have hlent : CostsAt (Moves busy) (fun _ => lent a) (checkText (stackEnv netIn) id seg pkb) s3 := by
        refine costs_checkText ha fun t' ht' hr hhas => ?_
        rcases checkAck_text ht hrun ht' hr with ho | ⟨hr0, ho0, hnxt, hreass⟩
        · exact .inl ho
        · rw [hnxt, hreass]
          have := htext hseq' hrst' hr0 hhas
          rw [ho0] at this
          exact this.imp_left fun h => by simp at h
      refine hlent.bind fun seg' s4 _ => ?_
      refine CostsAt.seq keeps_checkFin fun _ s5 _ => (costs_drop hnet ha).cast fun _ => ?_
      simp [spent, lent, gotten]

end Drop

end Arrive

section Listen

lemma tcpHash_false (h : tcpHash (stackEnv netIn) id s = .ok (false, s')) : s' = s := by
  obtain ⟨t, s1, hget, hrun⟩ := bind_inv h
  obtain ⟨rfl, -⟩ := getSk_run hget
  split_ifs at hrun
  · exact (ok_inj hrun).2.symm
  · obtain ⟨_, _, -, hrun⟩ := bind_inv hrun
    obtain ⟨_, _, -, hrun⟩ := bind_inv hrun
    cases hrun
  · obtain ⟨w, s2, hw, hrun⟩ := bind_inv hrun
    cases hw
    split_ifs at hrun
    · exact (ok_inj hrun).2.symm
    · obtain ⟨_, _, -, hrun⟩ := bind_inv hrun
      obtain ⟨_, _, -, hrun⟩ := bind_inv hrun
      cases hrun

lemma shifts_newSock (hsocks : w.socks =
      Function.update s.tcp.socks s.tcp.nextSock (some child)) (hnext : w.nextSock = s.tcp.nextSock + 1)
    (hspare : spare child = 0) (hwait : waiting child = []) :
    Shifts busy (busy - one s.tcp.nextSock) 0 s { s with tcp := w } := by
  have hother : ∀ i ≠ s.tcp.nextSock, (busy - one s.tcp.nextSock) i = busy i := by
    intro i hi
    simp [one, hi]
  refine Shifts.same (fun h => ⟨h.balanced, h.arp, h.inet, ?_, ?_⟩) rfl fun h => ?_
  · intro i hi
    have hlt : s.tcp.nextSock < i := by
      have : w.nextSock ≤ i := hi
      omega
    rw [hother i hlt.ne', show ({ s with tcp := w } : Stack).tcp.socks i = w.socks i from rfl, hsocks,
      Function.update_of_ne hlt.ne']
    exact h.fresh i hlt.le
  · intro i t ht hn
    rw [show ({ s with tcp := w } : Stack).tcp.socks i = w.socks i from rfl, hsocks] at ht
    by_cases hi : i = s.tcp.nextSock
    · subst hi
      rw [Function.update_self] at ht
      cases ht
      simp [one, hspare, (h.fresh _ le_rfl).2]
    · rw [Function.update_of_ne hi] at ht
      rw [hother i hi]
      exact h.user i t ht hn
  · have hold : (List.range s.tcp.nextSock).flatMap (fun i => (w.socks i).elim [] waiting) = tcpLinks s.tcp := by
      apply List.flatMap_congr
      intro i hi
      rw [hsocks, Function.update_of_ne (List.mem_range.mp hi).ne]
    have hlinks : tcpLinks w = tcpLinks s.tcp := by
      rw [tcpLinks, hnext, List.range_succ, List.flatMap_append, hold, List.flatMap_singleton, hsocks,
        Function.update_self, Option.elim_some, hwait, List.append_nil]
    simp only [held_eq, hlinks]

lemma shifts_reference (ht : s.tcp.socks id = some t) :
    Shifts busy (busy + one id) 0 s (put s id (some (setRefcnt (t.sk.refcnt + 1) t))) := by
  refine Shifts.same (fun hs => ?_) rfl fun hs => ?_
  · refine sound_put hs (sock_lt hs ht) (fun i hi => by simp [one, hi]) fun t1 ht1 hn => ?_
    cases ht1
    have hspare : spare (setRefcnt (t.sk.refcnt + 1) t) = spare t + 1 := by
      simp only [spare, setRefcnt]
      ring
    have := hs.user id t ht hn
    simp only [Pi.add_apply, one, Pi.single_eq_same]
    omega
  · rw [held_put (sock_lt hs ht), ht]
    exact add_eq_left.mpr (sub_self _)

lemma shifts_getSock (hrun : getSock (stackEnv netIn) id s = .ok (u, s')) : Shifts busy (busy + one id) 0 s s' := by
  obtain ⟨t, ht, rfl⟩ := modifySk_run hrun
  exact shifts_reference ht

lemma keeps_tcpListenChildSock : Keeps busy (tcpListenChildSock (stackEnv netIn) id seg) s := by
  intro r s' hrun
  obtain ⟨w, s0, hw, hmake⟩ := bind_inv hrun
  cases hw
  obtain ⟨_, s1, hnew, htry⟩ := bind_inv hmake
  obtain ⟨b, s2, hhash, hend⟩ := bind_inv htry
  have hmade : Shifts busy (busy - one s.tcp.nextSock) 0 s s1 := by
    cases hnew
    exact shifts_newSock rfl rfl rfl rfl
  have hhashed : Moves (busy - one s.tcp.nextSock) 0 s1 s2 := keeps_tcpHash _ _ hhash
  clear hrun hmake htry
  cases b with
  | false =>
    obtain rfl := tcpHash_false hhash
    obtain ⟨_, s3, hgone, hpure⟩ := bind_inv hend
    obtain ⟨-, rfl⟩ := ok_inj hpure
    have hunmade : Shifts (busy - one s.tcp.nextSock) busy 0 s2 s3 := by
      cases hnew
      obtain ⟨-, rfl⟩ := ok_inj hgone
      have hlt : s.tcp.nextSock < s.tcp.nextSock + 1 := Nat.lt_succ_self _
      have hother : ∀ i ≠ s.tcp.nextSock, busy i = (busy - one s.tcp.nextSock) i :=
        fun i hi => by simp [one, hi]
      refine Shifts.same (fun hs => ?_) rfl fun hs => ?_
      · exact sound_put hs hlt hother fun _ h => by simp at h
      · refine (held_put hlt).trans ?_
        simp [stackEnv, waiting, tcpAllocSock]
    have := hmade.trans hunmade
    rwa [add_zero] at this
  | true =>
    have hlinked : CostsAt (Moves (busy - one s.tcp.nextSock)) (fun _ => 0) (do
        getSock (stackEnv netIn) id
        modifySk (stackEnv netIn) s.tcp.nextSock (fun t => { t with parent := .sock id })
        modifySk (stackEnv netIn) id (fun t => { t with listenQueue := s.tcp.nextSock :: t.listenQueue })) s2 := by
      refine keeps_getSock.seq fun _ s3 _ => ?_
      refine CostsAt.seq (keeps_modifySk fun _ => ⟨fun h => h, le_rfl, rfl⟩) fun _ s4 _ => ?_
      exact keeps_modifySk fun _ => ⟨fun h => h, le_rfl, rfl⟩
    obtain ⟨_, s3, h3, hend⟩ := bind_inv hend
    obtain ⟨_, s4, h4, hend⟩ := bind_inv hend
    obtain ⟨_, s5, h5, hend⟩ := bind_inv hend
    obtain ⟨_, s6, h6, hend⟩ := bind_inv hend
    obtain ⟨-, rfl⟩ := ok_inj hend
    have hall := hlinked () s5 ((bind_run h3).trans ((bind_run h4).trans h5))
    have huser : Shifts (busy - one s.tcp.nextSock) (busy - one s.tcp.nextSock + one s.tcp.nextSock) 0 s5 s6 :=
      shifts_getSock h6
    rw [sub_add_cancel] at huser
    have := ((hmade.trans hhashed).trans hall).trans huser
    simpa only [add_zero] using this

lemma keeps_allocNewIss : Keeps busy (allocNewIss (stackEnv netIn)) s := by
  refine CostsAt.seq (keeps_of_reads reads_getWorld) fun w s1 _ => ?_
  exact CostsAt.seq (keeps_modifyWorld (fun _ => rfl) fun _ => rfl) fun _ _ _ => costsAt_pure rfl

lemma spends_tcpListen (hnet : Takes busy netIn) (ha : pkb.pkAddr = a) :
    Spends busy a (tcpListen (stackEnv netIn) pkb seg id) s := by
  rw [tcpListen]
  split_ifs
  · exact spends_freePkb ha
  · exact (keeps_tcpSendReset hnet).seq fun _ _ _ => spends_freePkb ha
  · exact spends_freePkb ha
  · refine keeps_tcpListenChildSock.seq fun r s1 _ => ?_
    cases r with
    | none => exact spends_freePkb ha
    | some new =>
      refine keeps_allocNewIss.seq fun iss s2 _ => ?_
      refine CostsAt.seq (keeps_modifySk fun _ => ⟨fun h => h, le_rfl, rfl⟩) fun _ s3 _ => ?_
      refine (keeps_tcpSendSynack hnet).seq fun _ s4 _ => ?_
      exact CostsAt.seq (keeps_modifySk fun _ => ⟨fun h => h, le_rfl, rfl⟩) fun _ _ _ => spends_freePkb ha

end Listen

section Recv

open Connection (hasText)

lemma regularFor_accepted (h1 : t.state ≠ .closed) (h2 : t.state ≠ .listen) (h3 : t.state ≠ .synSent)
    (hreg : regularFor t seg = true) (hseq : seqCheck seg t = true) (hrst : seg.rst = false) :
    seg.syn = false ∧ (receives t.state = false ∨ opening t.state = true ∨ hasText seg = false ∨
      t.rcvReass = [] ∧ seg.seq ≤ t.rcvNxt) := by
  rw [regularFor] at hreg
  split at hreg
  · contradiction
  · contradiction
  · contradiction
  · simpa [hseq, hrst, or_assoc] using hreg

lemma spends_tcpProcess (hpos : 0 ≤ busy) (hnet : Takes busy netIn)
    (ha : pkb.pkAddr = a) (ht : s.tcp.socks id = some t) (hreg : regularFor t seg = true) :
    Spends busy a (tcpProcess (stackEnv netIn) pkb seg (some id)) s := by
  refine CostsAt.seq (keeps_of_reads reads_getSk) fun t1 s1 hget => ?_
  obtain ⟨rfl, ht1⟩ := getSk_run hget
  cases Option.mem_unique ht ht1
  have harrive : t.state ≠ .closed → t.state ≠ .listen → t.state ≠ .synSent →
      Spends busy a (tcpArrive (stackEnv netIn) pkb seg id) s1 := by
    intro h1 h2 h3
    have hall := regularFor_accepted h1 h2 h3 hreg
    refine spends_tcpArrive hpos hnet ha ht (fun hseq hrst => (hall hseq hrst).1) fun hseq hrst hr htext => ?_
    rcases (hall hseq hrst).2 with h | h | h | h
    · rw [hr] at h
      cases h
    · exact .inl h
    · rw [htext] at h
      cases h
    · exact .inr h
  split
  · exact spends_tcpClosed hnet ha
  · exact spends_tcpListen hnet ha
  · rename_i hst
    exact spends_tcpSynsent hnet ha ht hst hreg
  · rename_i h1 h2 h3
    exact harrive h1 h2 h3

def found (w : TcpWorld) (seg : TcpSegment) : Option TcpSock :=
  ((w.etable.filterMap w.socks).find? fun t => t.sk.skSaddr = seg.iphdrDst && t.sk.skDaddr = seg.iphdrSrc &&
    t.sk.skSport = seg.tcphdrDst && t.sk.skDport = seg.tcphdrSrc).or
  ((w.ltable.filterMap w.socks).find? fun t =>
    (t.sk.skSaddr = 0 || t.sk.skSaddr = seg.iphdrDst) && t.sk.skSport = seg.tcphdrDst)

lemma lookupChain_run (h : lookupChain (stackEnv netIn) isMatch ids s = .ok (r, s')) :
    r = none ∧ s' = s ∧ (ids.filterMap s.tcp.socks).find? isMatch = none ∨
      ∃ id t, r = some id ∧ s.tcp.socks id = some t ∧ s' = put s id (some (setRefcnt (t.sk.refcnt + 1) t)) ∧
        (ids.filterMap s.tcp.socks).find? isMatch = some t := by
  induction ids with
  | nil =>
    cases h
    exact .inl ⟨rfl, rfl, rfl⟩
  | cons id rest ih =>
    rw [lookupChain] at h
    obtain ⟨t, s1, hget, hrest⟩ := bind_inv h
    obtain ⟨rfl, ht⟩ := getSk_run hget
    rw [List.filterMap_cons_some ht]
    split_ifs at hrest with hm
    · obtain ⟨u, s2, hsock, hpure⟩ := bind_inv hrest
      obtain ⟨t', ht', rfl⟩ := modifySk_run hsock
      cases Option.mem_unique ht ht'
      cases hpure
      exact .inr ⟨id, t, rfl, ht, rfl, List.find?_cons_of_pos hm⟩
    · rw [List.find?_cons_of_neg hm]
      exact ih hrest

lemma tcpLookupSock_run (h : tcpLookupSock (stackEnv netIn) seg.iphdrSrc seg.iphdrDst
      seg.tcphdrSrc seg.tcphdrDst s = .ok (r, s')) :
    r = none ∧ s' = s ∨ ∃ id t, r = some id ∧ s.tcp.socks id = some t ∧
      s' = put s id (some (setRefcnt (t.sk.refcnt + 1) t)) ∧ found s.tcp seg = some t := by
  obtain ⟨r1, s1, hest, hrest⟩ := bind_inv h
  obtain ⟨w, s2, hw, hest⟩ := bind_inv hest
  cases hw
  rcases lookupChain_run hest with ⟨rfl, rfl, hnone⟩ | ⟨id, t, rfl, ht, rfl, hfind⟩
  · obtain ⟨w, s3, hw, hlisten⟩ := bind_inv hrest
    cases hw
    rcases lookupChain_run hlisten with ⟨rfl, rfl, -⟩ | ⟨id, t, rfl, ht, rfl, hfind⟩
    · exact .inl ⟨rfl, rfl⟩
    · exact .inr ⟨id, t, rfl, ht, rfl, (congrArg₂ Option.or hnone hfind).trans rfl⟩
  · cases hrest
    exact .inr ⟨id, t, rfl, ht, rfl, (congrArg₂ Option.or hfind rfl).trans rfl⟩

variable (hpos : 0 ≤ busy)
  (hnet : ∀ busy, 0 ≤ busy → Takes busy netIn)

include hpos hnet

lemma spends_tcpRecv (ha : pkb.pkAddr = a) (hreg : ∀ t ∈ found s.tcp seg, regularFor t seg = true) :
    Spends busy a (tcpRecv (stackEnv netIn) pkb seg) s := by
  intro u s' hrun
  obtain ⟨r, s1, hlook, hrest⟩ := bind_inv hrun
  obtain ⟨v, s2, hproc, hend⟩ := bind_inv hrest
  rcases tcpLookupSock_run hlook with ⟨rfl, rfl⟩ | ⟨id, t, rfl, ht, rfl, hfound⟩
  · obtain ⟨-, rfl⟩ := ok_inj hend
    rw [tcpProcess] at hproc
    exact spends_tcpClosed (hnet busy hpos) ha v s2 hproc
  · have hpos1 : 0 ≤ busy + one id := add_nonneg hpos (one_nonneg id)
    have hreg1 : regularFor (setRefcnt (t.sk.refcnt + 1) t) seg = true := hreg t hfound
    have hprocess : Moves (busy + one id) (spent a) _ s2 :=
      spends_tcpProcess hpos1 (hnet _ hpos1) ha put_socks_self hreg1 v s2 hproc
    have hfree : Shifts (busy + one id) busy 0 s2 s' := by
      intro hs
      refine shifts_freeSock (hpos id) (fun i hi => by simp [one, hi]) (fun t' ht' hn => ?_) hend hs
      have := hs.user id t' ht' hn
      simp only [Pi.add_apply, one, Pi.single_eq_same] at this
      omega
    have := ((shifts_reference ht).trans hprocess).trans hfree
    rwa [zero_add, add_zero] at this

lemma spends_tcpIn (ha : pkb.pkAddr = a)
    (hreg : ∀ t ∈ found s.tcp (tcpSegmentInit pkb), regularFor t (tcpSegmentInit pkb) = true) :
    Spends busy a (tcpIn (stackEnv netIn) pkb) s := by
  rw [tcpIn]
  split_ifs
  · exact spends_freePkb ha
  · exact spends_freePkb ha
  · exact spends_tcpRecv hpos hnet ha hreg

end Recv

end Tapip.Tcp.SegmentCustody
