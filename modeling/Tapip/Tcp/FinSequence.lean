import Tapip.Tcp.Session

/-! The FIN behind the peer's stream. -/

namespace Tapip.Tcp.FinSequence

open Net.Pkb Foundation.Program Text Connection Tcp.Stream Session

def FinAlone (tsk : TcpSock) (seg : TcpSegment) : Prop :=
  seg.fin = true → seg.dlen = 0 ∧ seg.seq = tsk.rcvNxt

structure Taken (irs : UInt32) (S got : List UInt8) (tsk : TcpSock) : Prop where
  delivered : Delivered irs S got tsk
  sound : ∀ trh ∈ tsk.rcvReass, Sound irs S trh

variable {irs : UInt32} {S got : List UInt8} {tsk : TcpSock} {seg : TcpSegment} {pkb : Pkbuf}

section Arrival

lemma Taken.of_recvSide {t t' : TcpSock} (h : recvSide t' = recvSide t) (ht : Taken irs S got t) :
    Taken irs S got t' := by
  obtain ⟨hbuf, hreass, hnxt⟩ : t'.rcvBuf = t.rcvBuf ∧ t'.rcvReass = t.rcvReass ∧ t'.rcvNxt = t.rcvNxt := by
    simpa [recvSide] using h
  obtain ⟨⟨hw, hb⟩, hq⟩ := ht
  refine ⟨⟨?_, ?_⟩, by rwa [hreass]⟩
  · rwa [BufWf, hbuf]
  · rwa [held, hbuf, hnxt]

lemma Taken.texted (hS : irs.toNat + 1 + S.length < 2 ^ 32) {t : TcpSock} {seg' : TcpSegment}
    (ht : Taken irs S got tsk) (hseg : OfStream irs S seg)
    (h : texted tsk seg pkb = .ok (t, seg')) :
    Taken irs S got t ∧ tsk.rcvNxt.toNat ≤ t.rcvNxt.toNat ∧ t.state = tsk.state := by
  obtain ⟨r, -, -, hr, rfl, -⟩ | ⟨rfl, -⟩ := texted_inv h
  · obtain ⟨hd, hq⟩ := ht.delivered.tcpRecvText hS ht.sound hseg.carries hseg.short hr
    obtain ⟨_, _, _, _, _, _, _, he⟩ := tcpRecvText_receives hr
    exact ⟨⟨hd.delivered, hq⟩, hd.le, by rw [he]⟩
  · exact ⟨ht, le_rfl, rfl⟩

lemma Taken.arrived (hS : irs.toNat + 1 + S.length < 2 ^ 32) {t : TcpSock} {seg' : TcpSegment}
    (ht : Taken irs S got tsk) (hr : receives tsk.state = true) (hseg : OfStream irs S seg)
    (h : arrived tsk seg pkb = .ok (t, seg')) :
    ∃ t1, Taken irs S got t1 ∧ receives t1.state = true ∧
      (t = t1 ∨ t = finished t1 seg' ∧ tsk.rcvNxt.toNat ≤ t1.rcvNxt.toNat ∧ CutOf seg seg') := by
  simp only [Connection.arrived] at h
  split_ifs at h
  · cases h
    exact ⟨tsk, ht, hr, .inl rfl⟩
  cases hk : acked tsk seg with
  | none =>
    rw [hk] at h
    cases h
    exact ⟨tsk, ht, hr, .inl rfl⟩
  | some t0 =>
    simp only [hk] at h
    obtain ⟨hr0, -, -, hside⟩ := acked_spec hr hk
    have hnxt : t0.rcvNxt = tsk.rcvNxt := by simpa [recvSide] using congrArg (fun p => p.2.2) hside
    cases htext : Connection.texted t0 seg pkb with
    | error e => simp [htext, Except.map] at h
    | ok p =>
      obtain ⟨rfl, rfl⟩ : finished p.1 p.2 = t ∧ p.2 = seg' := by simpa [htext, Except.map] using h
      obtain ⟨ht1, hle, hstate⟩ := (ht.of_recvSide hside).texted hS hseg htext
      exact ⟨p.1, ht1, hstate ▸ hr0, .inr ⟨rfl, hnxt ▸ hle, texted_cutOf htext⟩⟩

end Arrival

section Fin

variable {net : Net} {id : ℕ} {s s' : Local} {ok : TcpSock → TcpSegment → Prop}

lemma Reached.taken (hS : irs.toNat + 1 + S.length < 2 ^ 32) (h : Reached net id irs S ok s got)
    (hs : s.sock id = some tsk) (hr : receives tsk.state = true) : Taken irs S got tsk := by
  refine h.invariant (I := fun t got => Taken irs S got t) ?_ ?_ ?_ ?_ ?_ hs hr
  · intro t t' _ hside ht
    exact ht.of_recvSide hside
  · intro t ho
    exact ⟨⟨ho.buf, 0, Nat.zero_le _, ho.rcvNxt, by simp [ho.held]⟩, by simp [ho.rcvReass]⟩
  · intro t t' seg seg' pkb _ hrt hseg _ ht harr hrt'
    obtain ⟨t1, ht1, -, rfl | ⟨rfl, -⟩⟩ := ht.arrived hS hrt hseg harr
    · exact ht1
    · have hf := receives_finished hrt'
      simpa [finished, hf] using ht1
  · intro t t' len buf _ ht hrun
    obtain ⟨hd, hq⟩ := ht.delivered.read hrun
    exact ⟨hd, hq ▸ ht.sound⟩
  · intro t _ ht
    obtain ⟨k, hk, hn, hb⟩ := ht.delivered.bytes
    exact ⟨⟨by simp [BufWf], k, hk, hn, by simpa [held] using hb⟩, by simp⟩

theorem fin_covers_stream (hS : irs.toNat + 1 + S.length + 1 < 2 ^ 32)
    (h : Reached net id irs S FinAlone s got) (hs : s.sock id = some tsk)
    (hr : receives tsk.state = true) (hseg : OfStream irs S seg) (hc : seqCheck seg tsk = true)
    (hok : FinAlone tsk seg)
    (hrun : tcpProcess net.env pkb seg (some id) s = .ok ((), s')) :
    ∃ t' new, s'.sock id = some t' ∧ s'.sent = s.sent ++ new ∧ (receives t'.state = false →
      got ++ held t' = S ∧ t'.rcvNxt.toNat = irs.toNat + 1 + S.length + 1 ∧ ∀ e ∈ new, e.out.ackn = t'.rcvNxt) := by
  have htaken := Reached.taken (by omega) h hs hr
  obtain ⟨e, -, he⟩ | ⟨t, seg', s1, harr, hsock, hsent, hok'⟩ :=
    tcpProcess_run net pkb hs hr hc hseg.rst hseg.syn
  · simp [he] at hrun
  obtain ⟨-, rfl⟩ := ok_inj (hrun.symm.trans hok')
  obtain ⟨dst, hdst⟩ := answered_sock seg' hsock
  refine ⟨_, _, hdst, by rw [answered_sent, hsent], fun hleft => ?_⟩
  change receives t.state = false at hleft
  obtain ⟨t1, ht1, hr1, rfl | ⟨rfl, hle, hcut⟩⟩ := htaken.arrived (by omega) hr hseg harr
  · simp [hr1] at hleft
  cases hfin : seg'.fin with
  | false => simp [finished, hfin, hr1] at hleft
  | true =>
    have hfin0 : seg.fin = true := hcut.fin ▸ hfin
    obtain ⟨hdlen, hseq⟩ := hok hfin0
    have hend := hseg.fin hfin0
    obtain ⟨hlo, hhi⟩ := hcut.seq
    obtain ⟨k, hk, hn, hb⟩ := ht1.delivered.bytes
    rw [hdlen] at hend hhi
    rw [← hseq] at hle
    simp only [UInt32.toNat_zero, Nat.add_zero] at hend hhi
    obtain rfl : k = S.length := by omega
    have hheld : held (setDst dst (finished t1 seg')) = held t1 := by
      simp only [finished, hfin, if_true, held, setDst, finState]
      split <;> rfl
    have hnxt : (setDst dst (finished t1 seg')).rcvNxt = seg'.seq + 1 := by
      simp [finished, hfin, setDst]
    refine ⟨by rw [hheld, hb, List.take_length], ?_, ?_⟩
    · rw [hnxt, UInt32.toNat_add, UInt32.toNat_one, Nat.mod_eq_of_lt (by omega)]
      omega
    · intro e he
      split_ifs at he
      · cases List.mem_singleton.mp he
        rfl
      · simp at he

end Fin

def finSegment (seq : UInt32) (text : List UInt8) : TcpSegment :=
  { textSegment seq text with
    len := UInt32.ofNat text.length + 1, lastseq := seq + UInt32.ofNat text.length, fin := true }

def after (tsk : TcpSock) (seg : TcpSegment) : TcpSock × TcpSegment :=
  match arrived tsk seg (allocPkb 0 0) with
  | .ok p => p
  | .error _ => (tsk, seg)

theorem fin_covers_stream_close : ∃ s s' : Local, ∃ t' : TcpSock, Reached offline 0 100 [1, 2] FinAlone s [] ∧
      tcpProcess offline.env (allocPkb 0 0) (finSegment 103 []) (some 0) s = .ok ((), s') ∧
      s'.sock 0 = some t' ∧ t'.state = .closeWait ∧ held t' = [1, 2] ∧ t'.rcvNxt = 104 := by
  have h0 : Reached offline 0 100 [1, 2] FinAlone (oneSock freshSock) [] :=
    .start rfl rfl ⟨rfl, by simp [BufWf, freshSock, tcpAllocSock], rfl, rfl⟩
  have hseg1 : OfStream 100 [1, 2] (textSegment 101 [1, 2]) :=
    ⟨rfl, rfl, ⟨0, rfl, by decide, rfl⟩, by decide, by simp [textSegment]⟩
  have hseg2 : OfStream 100 [1, 2] (finSegment 103 []) :=
    ⟨rfl, rfl, ⟨2, rfl, by decide, rfl⟩, by decide, by decide⟩
  let t1 := (after freshSock (textSegment 101 [1, 2])).1
  obtain ⟨s1, hrun1, hs1⟩ := @tcpProcess_offline 0 (oneSock freshSock) freshSock t1 _
    (after freshSock (textSegment 101 [1, 2])).2 (allocPkb 0 0) rfl rfl rfl hseg1.rst hseg1.syn
    (by decide +kernel)
  have h1 := h0.segment rfl rfl hseg1 rfl (by simp [FinAlone, textSegment]) hrun1
  obtain ⟨s2, hrun2, hs2⟩ := @tcpProcess_offline 0 s1 t1 (after t1 (finSegment 103 [])).1 _
    (after t1 (finSegment 103 [])).2 (allocPkb 0 0) hs1 (by decide +kernel) (by decide +kernel)
    hseg2.rst hseg2.syn (by decide +kernel)
  obtain ⟨t', _, ht', -, hall⟩ := fin_covers_stream (by decide) h1 hs1 (by decide +kernel) hseg2
    (by decide +kernel) (fun _ => ⟨rfl, by decide +kernel⟩) hrun2
  have he := Option.mem_unique hs2 ht'
  rw [← he] at hall
  obtain ⟨hheld, hnxt, -⟩ := hall (by decide +kernel)
  exact ⟨s1, s2, _, h1, hrun2, hs2, by decide +kernel, hheld, UInt32.toNat_inj.mp hnxt⟩

-- The last byte comes first, with the FIN: the byte before it can no longer be taken.
theorem fin_loses_text : ∃ s s' : Local, ∃ tsk t' : TcpSock, ∃ seg : TcpSegment,
    Reached offline 0 100 [1, 2] (fun _ _ => True) s [] ∧ s.sock 0 = some tsk ∧
      tsk.state = .established ∧ OfStream 100 [1, 2] seg ∧ seqCheck seg tsk = true ∧
      tcpProcess offline.env (allocPkb 0 0) seg (some 0) s = .ok ((), s') ∧
      s'.sock 0 = some t' ∧ t'.state = .closeWait ∧ held t' = [] ∧ t'.rcvNxt = 103 := by
  have h0 : Reached offline 0 100 [1, 2] (fun _ _ => True) (oneSock freshSock) [] :=
    .start rfl rfl ⟨rfl, by simp [BufWf, freshSock, tcpAllocSock], rfl, rfl⟩
  obtain ⟨s1, hrun, hs1⟩ := @tcpProcess_offline 0 (oneSock freshSock) freshSock
    (after freshSock (finSegment 102 [2])).1 (finSegment 102 [2]) (after freshSock (finSegment 102 [2])).2
    (allocPkb 0 0) rfl rfl rfl rfl rfl (by decide +kernel)
  exact ⟨_, s1, freshSock, _, finSegment 102 [2], h0, rfl, rfl,
    ⟨rfl, rfl, ⟨1, rfl, by decide, rfl⟩, by decide, by decide⟩, rfl, hrun, hs1,
    by decide +kernel, by decide +kernel, by decide +kernel⟩

end Tapip.Tcp.FinSequence
