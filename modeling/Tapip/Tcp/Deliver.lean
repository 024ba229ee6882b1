import Tapip.Tcp.Room
import Tapip.Tcp.Session

/-! Text that could be delivered does not stay in the queue. -/

namespace Tapip.Tcp.Deliver

open Net.Pkb Foundation.Program Text Tcp.Stream ReassQueue Room

def Drained (tsk : TcpSock) : Prop :=
  tsk.rcvWnd ≠ 0 → ∀ trh ∈ tsk.rcvReass.head?, tsk.rcvNxt < trh.seq

structure Arrives (tsk : TcpSock) (seg : TcpSegment) : Prop where
  check : seqCheck seg tsk = true
  fits : seg.seq.toNat + seg.dlen.toNat < 2 ^ 32
  text : seg.dlen.toNat ≤ seg.text.length
  lt : seg.dlen.toNat < 2 ^ 16
  new : seg.dlen ≠ 0 → tsk.rcvNxt.toNat < seg.seq.toNat + seg.dlen.toNat
  apart : ∀ trh ∈ tsk.rcvReass, Apart seg trh

inductive Run (ok : TcpSock → TcpSegment → Prop) : TcpSock → Prop
  | start {tsk : TcpSock} : tsk.state = .established → tsk.rcvReass = [] → Roomy tsk → Run ok tsk
  | text {tsk : TcpSock} {seg : TcpSegment} {pkb : Pkbuf} {r : Received} : Run ok tsk →
      Arrives tsk seg → ok tsk seg → tcpRecvText tsk seg pkb = .ok r → Run ok r.tsk
  | read {tsk tsk' : TcpSock} {buf : List UInt8} {len : ℤ} : Run ok tsk → 0 < len →
      tcpReadBuf tsk len = .ok (buf, tsk') → Run ok tsk'
  | other {tsk tsk' : TcpSock} : Run ok tsk → Session.recvSide tsk' = Session.recvSide tsk →
      tsk'.rcvWnd = tsk.rcvWnd → tsk'.state = .established → Run ok tsk'

def Carried (tsk : TcpSock) (seg : TcpSegment) : Prop :=
  seg.dlen = 0 → seg.seq = tsk.rcvNxt ∧ tsk.rcvReass = []

instance (tsk : TcpSock) (seg : TcpSegment) : Decidable (Carried tsk seg) :=
  inferInstanceAs (Decidable (_ → _))

variable {tsk : TcpSock} {seg : TcpSegment}

section Step

lemma Arrives.fresh (h : Arrives tsk seg) (hlen : seg.dlen ≠ 0) :
    ∃ seg', adjacentSegmentHead tsk.rcvNxt seg = some seg' ∧ Fresh tsk seg' := by
  have hpos : 0 < seg.dlen.toNat := UInt32.lt_iff_toNat_lt.mp (UInt32.pos_iff_ne_zero.mpr hlen)
  have hwhole : Whole seg := ⟨hpos, h.lt.trans (by decide), h.fits, h.text⟩
  rcases UInt32.lt_or_le seg.seq tsk.rcvNxt with hlt | hle
  · obtain ⟨hcut, hend⟩ := hwhole.cut hlt (h.new hlen)
    have hstart : seg.seq.toNat ≤ (cut tsk.rcvNxt seg).seq.toNat := (UInt32.lt_iff_toNat_lt.mp hlt).le
    refine ⟨_, adjacentSegmentHead_of_lt_end hlt (h.new hlen), hcut, le_rfl, fun trh hm => ?_⟩
    cases h.apart trh hm with
    | inl h => exact .inl (hend ▸ h)
    | inr h => exact .inr (h.trans hstart)
  · exact ⟨seg, adjacentSegmentHead_of_le hle, hwhole, hle, h.apart⟩

lemma Orderly.insertSegment {front back : List TcpReassHead} (pkb : Pkbuf) (h : Roomy tsk)
    (hq : InOrder tsk.rcvNxt (front ++ entry pkb seg :: back)) (ht : Texts (front ++ entry pkb seg :: back)) :
    ∃ r, insertSegment tsk front ⟨[], back, seg, false⟩ pkb = .ok r ∧ Orderly r.tsk ∧ Drained r.tsk := by
  obtain ⟨freed, rest, tsk', len, hrun, hr, hi, hs, hhead⟩ := h.writeReass hq ht 0
  exact ⟨_, insertSegment_run hrun, ⟨hr, hi, fun trh hm => ht.pos trh (hs.subset hm), fun trh hm => ht.lt trh (hs.subset hm)⟩, hhead⟩

lemma Orderly.tcpSegmentReass (pkb : Pkbuf) (ho : Orderly tsk) (h : Fresh tsk seg) :
    ∃ r, tcpSegmentReass tsk seg pkb = .ok r ∧ Orderly r.tsk ∧ Drained r.tsk := by
  by_cases hlead : Leads tsk seg
  · rcases UInt32.lt_or_le seg.seq (tsk.sndWnd + tsk.sndUp) with hlt | hle
    · rcases Nat.lt_or_ge (tsk.sndWnd + tsk.sndUp).toNat (seg.seq.toNat + seg.dlen.toNat) with hend | hend
      · rw [tcpSegmentReass_cut pkb hlead hlt ho h hend]
        obtain ⟨hq, ht⟩ := h.insert_cut pkb ho hlead hlt hend
        exact Orderly.insertSegment pkb ho.roomy hq ht
      · -- dropped, so the first one waits for this segment too
        refine ⟨_, tcpSegmentReass_dropped pkb hlead hlt hend, ho, fun _ trh hm => ?_⟩
        obtain ⟨trh', hm', hlt'⟩ := hlead
        cases Option.mem_unique hm' hm
        exact UInt32.lt_of_le_of_lt h.ge hlt'
    · rw [tcpSegmentReass_kept pkb ho h fun _ => hle]
      obtain ⟨hq, ht⟩ := h.insert pkb ho
      exact Orderly.insertSegment pkb ho.roomy hq ht
  · rw [tcpSegmentReass_kept pkb ho h fun hl => absurd hl hlead]
    obtain ⟨hq, ht⟩ := h.insert pkb ho
    exact Orderly.insertSegment pkb ho.roomy hq ht

lemma Orderly.of_empty (h : Roomy tsk) (hq : tsk.rcvReass = []) : Orderly tsk ∧ Drained tsk := by
  refine ⟨⟨h, ?_, ?_, ?_⟩, ?_⟩
  · rw [hq]
    exact InOrder.nil _
  · simp [hq]
  · simp [hq]
  · simp [Drained, hq]

lemma Orderly.tcpRecvText (pkb : Pkbuf) (ho : Orderly tsk) (h : Arrives tsk seg) (hok : Carried tsk seg) :
    ∃ r, tcpRecvText tsk seg pkb = .ok r ∧ Orderly r.tsk ∧ Drained r.tsk := by
  simp only [Text.tcpRecvText]
  split_ifs with hzero
  · exact ⟨_, rfl, ho, fun hwnd => absurd hzero hwnd⟩
  have hfast : ∀ seg' : TcpSegment, seg'.dlen.toNat ≤ seg'.text.length → seg'.dlen.toNat < 2 ^ 31 →
      tsk.rcvReass = [] → ∃ r : Received, (do
        let p ← tcpWriteBuf tsk seg'.text seg'.dlen
        return ⟨{ p.2 with push := p.2.push || (decide (p.1 > 0) && seg'.psh), ackDelay := true },
          seg', false, []⟩ : Except Fault Received) = .ok r ∧ Orderly r.tsk ∧ Drained r.tsk := by
    intro seg' htext hlt hempty
    obtain ⟨c, hw, -, hr⟩ := ho.roomy.tcpWriteBuf htext hlt
    refine ⟨_, by rw [hw]; rfl, Orderly.of_empty hr ?_⟩
    exact hempty
  by_cases hlen : seg.dlen = 0
  · obtain ⟨hseq, hempty⟩ := hok hlen
    rw [adjacentSegmentHead_of_le (UInt32.le_of_eq hseq.symm)]
    simp only [hseq, hempty, List.isEmpty_nil, decide_true, Bool.and_true, if_true]
    exact hfast seg h.text (h.lt.trans (by decide)) hempty
  · obtain ⟨seg', hadj, hf⟩ := h.fresh hlen
    simp only [hadj]
    split_ifs with hnext
    · simp only [Bool.and_eq_true, List.isEmpty_iff] at hnext
      exact hfast seg' hf.whole.text hf.whole.lt hnext.2
    · obtain ⟨r, hrun, hr, hd⟩ := Orderly.tcpSegmentReass pkb ho hf
      rw [hrun]
      exact ⟨_, rfl, ⟨hr.roomy, hr.order, hr.texts⟩, hd⟩

end Step

section Run

lemma Orderly.of_recvSide {tsk' : TcpSock} (ho : Orderly tsk) (h : Session.recvSide tsk' = Session.recvSide tsk)
    (hwnd : tsk'.rcvWnd = tsk.rcvWnd) : Orderly tsk' := by
  obtain ⟨hbuf, hq, hnxt⟩ := by simpa [Session.recvSide] using h
  obtain ⟨h1, h2, h3⟩ := ho
  refine ⟨?_, ?_, ?_⟩
  · simpa only [Roomy, hbuf, hwnd] using h1
  · rwa [hq, hnxt]
  · rwa [hq]

lemma Orderly.read {tsk' : TcpSock} {buf : List UInt8} {len : ℤ} (ho : Orderly tsk) (hlen : 0 < len)
    (h : tcpReadBuf tsk len = .ok (buf, tsk')) : Orderly tsk' := by
  have hroomy := ho.roomy.read hlen h
  obtain ⟨⟨bytes, curlen, rcvBuf⟩, -, h⟩ := bind_eq_ok.mp h
  cases h
  exact ⟨hroomy, ho.order, ho.texts⟩

lemma Run.orderly (h : Run Carried tsk) : Orderly tsk := by
  induction h with
  | start _ hq hroomy => exact (Orderly.of_empty hroomy hq).1
  | @text tsk seg pkb r _ ha hok hrun ih =>
    obtain ⟨r', hrun', ho, -⟩ := Orderly.tcpRecvText pkb ih ha hok
    cases hrun.symm.trans hrun'
    exact ho
  | read _ hlen hread ih => exact Orderly.read ih hlen hread
  | other _ hside hwnd _ ih => exact Orderly.of_recvSide ih hside hwnd

theorem nothing_left_behind (h : Run Carried tsk) (ha : Arrives tsk seg) (hok : Carried tsk seg)
    (pkb : Pkbuf) : ∃ r, tcpRecvText tsk seg pkb = .ok r ∧
      (r.tsk.rcvWnd ≠ 0 → ∀ trh ∈ r.tsk.rcvReass.head?, r.tsk.rcvNxt < trh.seq) := by
  obtain ⟨r, hrun, -, hd⟩ := Orderly.tcpRecvText pkb h.orderly ha hok
  exact ⟨r, hrun, hd⟩

end Run

def texted (tsk : TcpSock) (seg : TcpSegment) : TcpSock :=
  (tcpRecvText tsk seg (allocPkb 0 0)).toOption.elim tsk Received.tsk

theorem nothing_left_behind_reordered : ∃ tsk r, Run Carried tsk ∧ tsk.rcvReass.length = 1 ∧
      tcpRecvText tsk (textSegment 101 [1]) (allocPkb 0 0) = .ok r ∧
      (r.tsk.rcvWnd ≠ 0 → ∀ trh ∈ r.tsk.rcvReass.head?, r.tsk.rcvNxt < trh.seq) := by
  have h0 : Run Carried freshSock := .start rfl rfl (by decide : 12 + 8 < 2 ^ 31)
  have h1 : Run Carried (texted freshSock (textSegment 103 [3, 4])) :=
    @Run.text _ _ (textSegment 103 [3, 4]) (allocPkb 0 0) _ h0
      ⟨by decide, by decide, by decide, by decide, by decide, by decide⟩ (by decide) rfl
  have ha : Arrives (texted freshSock (textSegment 103 [3, 4])) (textSegment 101 [1]) :=
    ⟨by decide, by decide, by decide, by decide, by decide, by decide⟩
  obtain ⟨r, hr, hhead⟩ := nothing_left_behind h1 ha (by decide) (allocPkb 0 0)
  exact ⟨_, r, h1, by decide, hr, hhead⟩

def pushSegment (seq : UInt32) : TcpSegment := { textSegment seq [] with lastseq := seq }

/-- A PSH without text that came too early is never written, and nothing behind it is. -/
theorem push_left_behind : ∃ tsk r, Run (fun _ _ => True) tsk ∧ Arrives tsk (textSegment 101 [1, 2]) ∧
    tcpRecvText tsk (textSegment 101 [1, 2]) (allocPkb 0 0) = .ok r ∧ r.tsk.rcvWnd ≠ 0 ∧
    ∃ trh ∈ r.tsk.rcvReass.head?, trh.seq = r.tsk.rcvNxt := by
  have h0 : Run (fun _ _ => True) freshSock := .start rfl rfl (by decide : 12 + 8 < 2 ^ 31)
  have h1 : Run (fun _ _ => True) (texted freshSock (textSegment 103 [3, 4])) :=
    @Run.text _ _ (textSegment 103 [3, 4]) (allocPkb 0 0) _ h0
      ⟨by decide, by decide, by decide, by decide, by decide, by decide⟩ trivial rfl
  have h2 : Run (fun _ _ => True) (texted (texted freshSock (textSegment 103 [3, 4])) (pushSegment 105)) :=
    @Run.text _ _ (pushSegment 105) (allocPkb 0 0) _ h1
      ⟨by decide, by decide, by decide, by decide, by decide, by decide⟩ trivial rfl
  exact ⟨_, _, h2, ⟨by decide, by decide, by decide, by decide, by decide, by decide⟩, rfl, by decide, by decide⟩

end Tapip.Tcp.Deliver
