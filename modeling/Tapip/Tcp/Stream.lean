import Tapip.Tcp.Text

/-! The bytes of the peer's stream on their way to the user. -/

namespace Tapip.Tcp.Stream

open Net.Pkb Lib Foundation.Bytes Foundation.Program Text

def held (tsk : TcpSock) : List UInt8 := (tsk.rcvBuf.map contents).getD []

def BufWf (tsk : TcpSock) : Prop := ∀ c ∈ tsk.rcvBuf, Wf c

lemma rcvCbuf_spec (hw : BufWf tsk) (h : rcvCbuf tsk = .ok c) : Wf c ∧ contents c = held tsk := by
  cases hb : tsk.rcvBuf with
  | none =>
    simp only [rcvCbuf, hb] at h
    obtain ⟨hc, he⟩ := allocCbuf_wf h
    exact ⟨hc, by simp [held, hb, he]⟩
  | some cbuf =>
    simp only [rcvCbuf, hb, Except.ok.injEq] at h
    subst h
    exact ⟨hw _ hb, by simp [held, hb]⟩

lemma tcpWriteBuf_spec (hw : BufWf tsk) (hl : toInt len ≤ data.length)
    (h : tcpWriteBuf tsk data len = .ok (rlen, tsk')) :
    rlen ≤ toInt len ∧ ∃ c, Wf c ∧ contents c = held tsk ++ data.take rlen.toNat ∧ tsk' = { tsk with
        rcvBuf := some c
        rcvWnd := tsk.rcvWnd - UInt32.ofNat rlen.toNat
        rcvNxt := tsk.rcvNxt + UInt32.ofNat rlen.toNat } := by
  obtain ⟨c, hc, h⟩ := bind_eq_ok.mp h
  obtain ⟨hcw, hce⟩ := rcvCbuf_spec hw hc
  obtain ⟨c', hwrite, hw', -, -, he⟩ := writeCbuf_spec hcw hl
  simp only [hwrite, ok_bind, pure_eq_ok] at h
  split at h
  · cases h
    exact ⟨min_le_right _ _, c', hw', by rw [he, hce], rfl⟩
  · cases h
    have hz : (min (cbufFree c) (toInt len)).toNat = 0 := by omega
    refine ⟨min_le_right _ _, c', hw', by rw [he, hce], ?_⟩
    simp [hz]

lemma tcpWriteBuf_error (hw : BufWf tsk) (hl : toInt len ≤ data.length) (h : tcpWriteBuf tsk data len = .error e) :
    e = .exit := by
  rcases bind_eq_error.mp h with h | ⟨c, hc, h⟩
  · cases hb : tsk.rcvBuf with
    | none =>
      simp only [rcvCbuf, hb, allocCbuf] at h
      split_ifs at h
      exact (Except.error.inj h).symm
    | some c => simp [rcvCbuf, hb] at h
  · obtain ⟨c', hwrite, -⟩ := writeCbuf_spec (rcvCbuf_spec hw hc).1 hl
    simp only [hwrite, ok_bind, pure_eq_ok] at h
    split_ifs at h

section Peer

variable (irs : UInt32) (S : List UInt8)

def Carries (seq len : UInt32) (text : List UInt8) : Prop :=
  ∃ o, seq.toNat = irs.toNat + 1 + o ∧ o + len.toNat ≤ S.length ∧
    text.take len.toNat = slice S o len.toNat

variable {irs S}

lemma Carries.length (h : Carries irs S seq len text) : len.toNat ≤ text.length := by
  obtain ⟨o, -, ho, ht⟩ := h
  have := congrArg List.length ht
  rw [List.length_take, slice_length] at this
  omega

lemma Carries.drop (h : Carries irs S seq len text) (hs : seq'.toNat = seq.toNat + d)
    (hl : len'.toNat + d = len.toNat) : Carries irs S seq' len' (text.drop d) := by
  obtain ⟨o, ho, hle, ht⟩ := h
  refine ⟨o + d, by omega, by omega, ?_⟩
  have hcut := congrArg (List.drop d) ht
  rw [slice, List.drop_take, List.drop_take, List.drop_drop, show len.toNat - d = len'.toNat by omega] at hcut
  exact hcut

lemma Carries.take (h : Carries irs S seq len text) (hl : len'.toNat ≤ len.toNat) : Carries irs S seq len' text := by
  obtain ⟨o, ho, hle, ht⟩ := h
  refine ⟨o, ho, by omega, ?_⟩
  have hcut := congrArg (List.take len'.toNat) ht
  rwa [slice, List.take_take, List.take_take, Nat.min_eq_left hl] at hcut

-- A queued length that went below zero: as an `int` it is negative, so nothing of it is written.
def Inert (trh : TcpReassHead) : Prop :=
  2 ^ 31 ≤ trh.len.toNat ∧ 2 ^ 32 ≤ trh.seq.toNat + trh.len.toNat

variable (irs S) in
def Sound (trh : TcpReassHead) : Prop :=
  Carries irs S trh.seq trh.len trh.data ∧ trh.len.toNat < 2 ^ 16 ∨ Inert trh

variable (irs S) in
structure Delivered (got : List UInt8) (tsk : TcpSock) : Prop where
  buf : BufWf tsk
  bytes : ∃ k, k ≤ S.length ∧ tsk.rcvNxt.toNat = irs.toNat + 1 + k ∧ got ++ held tsk = S.take k

lemma Sound.writable {tsk : TcpSock} {trh : TcpReassHead} (h : Sound irs S trh) (he : trh.seq = tsk.rcvNxt) :
    Carries irs S tsk.rcvNxt trh.len trh.data ∧ trh.len.toNat < 2 ^ 16 ∨ 2 ^ 31 ≤ trh.len.toNat := by
  rcases h with h | h
  · exact .inl (he ▸ h)
  · exact .inr h.1

lemma toInt_le_length (hc : Carries irs S seq len data ∧ len.toNat < 2 ^ 16 ∨ 2 ^ 31 ≤ len.toNat) :
    toInt len ≤ data.length := by
  rcases hc with ⟨hc, -⟩ | hneg
  · have := toInt_le len
    have := hc.length
    omega
  · have := len.toNat_lt
    simp only [toInt]
    split_ifs <;> omega

variable (irs S) in
structure Advances (got : List UInt8) (tsk tsk' : TcpSock) : Prop where
  delivered : Delivered irs S got tsk'
  le : tsk.rcvNxt.toNat ≤ tsk'.rcvNxt.toNat

variable (hS : irs.toNat + 1 + S.length < 2 ^ 32) {got : List UInt8} {tsk tsk' : TcpSock}

include hS

lemma Delivered.write (hd : Delivered irs S got tsk)
    (hc : Carries irs S tsk.rcvNxt len data ∧ len.toNat < 2 ^ 16 ∨ 2 ^ 31 ≤ len.toNat)
    (h : tcpWriteBuf tsk data len = .ok (rlen, tsk')) : Advances irs S got tsk tsk' := by
  obtain ⟨k, hk, hn, hb⟩ := hd.bytes
  obtain ⟨hr, c, hw, he, rfl⟩ := tcpWriteBuf_spec hd.buf (toInt_le_length hc) h
  have hbuf : BufWf { tsk with
      rcvBuf := some c
      rcvWnd := tsk.rcvWnd - UInt32.ofNat rlen.toNat
      rcvNxt := tsk.rcvNxt + UInt32.ofNat rlen.toNat } := by
    intro c' hc'
    cases hc'
    exact hw
  have hheld : held { tsk with
      rcvBuf := some c
      rcvWnd := tsk.rcvWnd - UInt32.ofNat rlen.toNat
      rcvNxt := tsk.rcvNxt + UInt32.ofNat rlen.toNat } = held tsk ++ data.take rlen.toNat := he
  rcases hc with ⟨hc, -⟩ | hneg
  · obtain ⟨o, ho, hle, ht⟩ := hc
    obtain rfl : o = k := by omega
    have hint' := toInt_le len
    have hrl : rlen.toNat ≤ len.toNat := by omega
    have htake : data.take rlen.toNat = (S.drop o).take rlen.toNat := by
      have hcut := congrArg (List.take rlen.toNat) ht
      rwa [slice, List.take_take, List.take_take, Nat.min_eq_left hrl] at hcut
    have hnxt : (tsk.rcvNxt + UInt32.ofNat rlen.toNat).toNat = irs.toNat + 1 + (o + rlen.toNat) := by
      rw [UInt32.toNat_add, UInt32.toNat_ofNat']
      omega
    refine ⟨⟨hbuf, o + rlen.toNat, by omega, hnxt, ?_⟩, by simp only; omega⟩
    rw [hheld, ← List.append_assoc, hb, htake, ← List.take_add]
  · have hz : rlen.toNat = 0 := by
      have := len.toNat_lt
      simp only [toInt] at hr
      split_ifs at hr <;> omega
    refine ⟨⟨hbuf, k, hk, by simpa [hz] using hn, ?_⟩, by simp [hz]⟩
    rw [hheld, hz, List.take_zero, List.append_nil, hb]

lemma Delivered.drains (hd : Delivered irs S got tsk) (hq : ∀ trh ∈ queue, Sound irs S trh)
    (h : Drains queue tsk len freed rest tsk' len') : Advances irs S got tsk tsk' ∧ rest <:+ queue := by
  induction h with
  | rests => exact ⟨⟨hd, le_rfl⟩, List.suffix_rfl⟩
  | full heq hw => exact ⟨hd.write hS ((hq _ (by simp)).writable heq) hw, List.suffix_rfl⟩
  | next heq hw _ _ ih =>
    have hd1 := hd.write hS ((hq _ (by simp)).writable heq) hw
    obtain ⟨hd2, hs⟩ := ih hd1.delivered fun t ht => hq t (List.mem_cons_of_mem _ ht)
    exact ⟨⟨hd2.delivered, hd1.le.trans hd2.le⟩, hs.trans (List.suffix_cons _ _)⟩

lemma Carries.toNat_end (h : Carries irs S seq len text) : (seq + len).toNat = seq.toNat + len.toNat := by
  obtain ⟨o, ho, hle, -⟩ := h
  rw [UInt32.toNat_add, Nat.mod_eq_of_lt (by omega)]

lemma Sound.trimTail (pkb : Pkbuf) (hc : Carries irs S seg.seq seg.dlen seg.text) (hl : seg.dlen.toNat < 2 ^ 16)
    (ha : ∀ trh ∈ after, Sound irs S trh) (ht : trimTail seg after = .ok t) :
    Sound irs S ⟨pkb, t.seg.text, t.seg.seq, t.seg.dlen⟩ ∧ ∀ trh ∈ t.rest, Sound irs S trh := by
  obtain ⟨t', gone, ht', rfl, -, -, hseg, hcut⟩ := trimTail_spec seg after
  cases ht.symm.trans ht'
  refine ⟨?_, fun trh hm => ha trh (List.mem_append_right _ hm)⟩
  have hend := hc.toNat_end hS
  rcases hcut with ⟨he, -, -⟩ | ⟨trh, hm, hlo, hhi, hd, -⟩
  · rw [he]
    exact .inl ⟨hc, hl⟩
  have hlo' : trh.seq.toNat < (seg.seq + seg.dlen).toNat := hlo
  have hhi' : (seg.seq + seg.dlen).toNat < (trh.seq + trh.len).toNat := hhi
  have hsound := ha trh (List.mem_append_right _ (List.mem_of_mem_head? hm))
  rw [hseg]
  rcases hsound with ⟨htrh, hlen⟩ | hin
  · have hend' := htrh.toNat_end hS
    rcases Nat.lt_or_ge trh.seq.toNat seg.seq.toNat with hback | hfwd
    · -- the segment was cut past the start of the entry in front of which it goes
      right
      have hsub : (trh.seq - seg.seq).toNat = 2 ^ 32 - (seg.seq.toNat - trh.seq.toNat) := by
        have := seg.seq.toNat_lt
        rw [UInt32.toNat_sub]
        omega
      simp only [Inert, hd, hsub]
      omega
    · left
      have hsub : (trh.seq - seg.seq).toNat = trh.seq.toNat - seg.seq.toNat :=
        UInt32.toNat_sub_of_le _ _ hfwd
      simp only [hd]
      exact ⟨hc.take (by omega), by omega⟩
  · have h1 := hin.2
    have h2 := trh.len.toNat_lt
    rw [UInt32.toNat_add trh.seq] at hhi'
    omega

lemma Placed.sound (hp : Placed tsk seg before after seg') (hq : ∀ trh ∈ tsk.rcvReass, Sound irs S trh)
    (hc : Carries irs S seg.seq seg.dlen seg.text) (hl : seg.dlen.toNat < 2 ^ 16)
    (ht : trimTail seg' after = .ok t) :
    ∀ trh ∈ before ++ ⟨pkb, t.seg.text, t.seg.seq, t.seg.dlen⟩ :: t.rest, Sound irs S trh := by
  rw [hp.split] at hq
  obtain ⟨d, hs, hlen, htext⟩ := hp.trimmed
  have hc' : Carries irs S seg'.seq seg'.dlen seg'.text := htext ▸ hc.drop hs hlen
  obtain ⟨hnew, hrest⟩ := Sound.trimTail hS pkb hc' (by omega)
    (fun trh hm => hq trh (List.mem_append_right _ hm)) ht
  intro trh hm
  rcases List.mem_append.mp hm with hm | hm
  · exact hq trh (List.mem_append_left _ hm)
  · rcases List.mem_cons.mp hm with rfl | hm
    · exact hnew
    · exact hrest trh hm

lemma Delivered.tcpSegmentReass (hd : Delivered irs S got tsk) (hq : ∀ trh ∈ tsk.rcvReass, Sound irs S trh)
    (hc : Carries irs S seg.seq seg.dlen seg.text) (hl : seg.dlen.toNat < 2 ^ 16)
    (h : tcpSegmentReass tsk seg pkb = .ok r) :
    Advances irs S got tsk r.tsk ∧ ∀ trh ∈ r.tsk.rcvReass, Sound irs S trh := by
  rcases tcpSegmentReass_cases tsk seg pkb with he | ⟨before, after, seg', t, hp, ht, he⟩
  · cases h.symm.trans he
    exact ⟨⟨hd, le_rfl⟩, hq⟩
  have hall := @Placed.sound _ _ hS _ _ _ _ _ _ pkb hp hq hc hl ht
  rw [he] at h
  split_ifs at h
  · cases h
    refine ⟨⟨⟨hd.buf, hd.bytes⟩, le_rfl⟩, fun trh hm => hall trh ?_⟩
    simp only [List.mem_append, List.mem_cons] at hm ⊢
    tauto
  · obtain ⟨⟨freed, rest, tsk', len⟩, hrun, h⟩ := bind_eq_ok.mp h
    cases h
    obtain ⟨hd', hsuf⟩ := hd.drains hS hall (writeReass_drains hrun)
    exact ⟨⟨⟨hd'.delivered.buf, hd'.delivered.bytes⟩, hd'.le⟩, fun trh hm => hall trh (hsuf.mem hm)⟩

lemma Delivered.tcpRecvText (hd : Delivered irs S got tsk) (hq : ∀ trh ∈ tsk.rcvReass, Sound irs S trh)
    (hc : Carries irs S seg.seq seg.dlen seg.text) (hl : seg.dlen.toNat < 2 ^ 16)
    (h : tcpRecvText tsk seg pkb = .ok r) :
    Advances irs S got tsk r.tsk ∧ ∀ trh ∈ r.tsk.rcvReass, Sound irs S trh := by
  simp only [Text.tcpRecvText] at h
  split at h
  · cases h
    exact ⟨⟨hd, le_rfl⟩, hq⟩
  split at h
  · cases h
    exact ⟨⟨hd, le_rfl⟩, hq⟩
  · rename_i seg' hadj
    obtain ⟨d, hs, hlen, htext, -⟩ := adjacentSegmentHead_spec hadj
    have hc' : Carries irs S seg'.seq seg'.dlen seg'.text := htext ▸ hc.drop hs hlen
    split at h
    · rename_i hfast
      simp only [Bool.and_eq_true, decide_eq_true_eq, List.isEmpty_iff] at hfast
      obtain ⟨⟨rlen, tsk'⟩, hw, h⟩ := bind_eq_ok.mp h
      cases h
      have hd' := hd.write hS (.inl ⟨hfast.1 ▸ hc', by omega⟩) hw
      refine ⟨⟨⟨hd'.delivered.buf, hd'.delivered.bytes⟩, hd'.le⟩, ?_⟩
      obtain ⟨-, c, -, -, rfl⟩ := tcpWriteBuf_spec hd.buf (toInt_le_length (.inl ⟨hc', by omega⟩)) hw
      exact hq
    · obtain ⟨r', hr, h⟩ := bind_eq_ok.mp h
      cases h
      obtain ⟨hd', hq'⟩ := hd.tcpSegmentReass hS hq hc' (by omega) hr
      exact ⟨⟨⟨hd'.delivered.buf, hd'.delivered.bytes⟩, hd'.le⟩, hq'⟩

end Peer

structure Fresh (irs : UInt32) (tsk : TcpSock) : Prop where
  state : tsk.state = .established
  rcvNxt : tsk.rcvNxt.toNat = irs.toNat + 1
  buf : BufWf tsk
  held : held tsk = []
  rcvReass : tsk.rcvReass = []

inductive Run (irs : UInt32) (S : List UInt8) : TcpSock → List UInt8 → Prop
  | start {tsk : TcpSock} : Fresh irs tsk → Run irs S tsk []
  | segment {tsk : TcpSock} {got : List UInt8} {seg : TcpSegment} {pkb : Pkbuf} {r : Received} :
      Run irs S tsk got → seg.syn = false → seg.rst = false → seg.fin = false →
      seqCheck seg tsk = true → Carries irs S seg.seq seg.dlen seg.text →
      seg.dlen.toNat < 2 ^ 16 → tcpRecvText tsk seg pkb = .ok r → Run irs S r.tsk got
  | read {tsk tsk' : TcpSock} {got buf : List UInt8} {len : ℤ} :
      Run irs S tsk got → tcpReadBuf tsk len = .ok (buf, tsk') → Run irs S tsk' (got ++ buf)
  | pushed {tsk : TcpSock} {got : List UInt8} :
      Run irs S tsk got → Run irs S (tcpEndPush tsk) got

lemma Fresh.delivered (h : Fresh irs tsk) : Delivered irs S [] tsk :=
  ⟨h.buf, 0, Nat.zero_le _, h.rcvNxt, by simp [h.held]⟩

lemma tcpReadBuf_spec (hw : BufWf tsk) (h : tcpReadBuf tsk len = .ok (buf, tsk')) :
    BufWf tsk' ∧ buf ++ held tsk' = held tsk ∧ tsk'.rcvReass = tsk.rcvReass ∧ tsk'.rcvNxt = tsk.rcvNxt := by
  obtain ⟨⟨bytes, curlen, rcvBuf⟩, hr, h⟩ := bind_eq_ok.mp h
  cases h
  cases hc : tsk.rcvBuf with
  | none =>
    rw [hc] at hr
    obtain ⟨rfl, -, rfl⟩ := by simpa [readCbuf] using hr
    exact ⟨by simp [BufWf], by simp [held, hc], rfl, rfl⟩
  | some c =>
    obtain ⟨c', hread, hw', -, he⟩ := readCbuf_spec len (hw c hc)
    rw [hc, hread] at hr
    obtain ⟨rfl, rfl, rfl⟩ := by simpa using hr
    refine ⟨by simpa [BufWf] using hw', ?_, rfl, rfl⟩
    simp only [held, hc, Option.map_some, Option.getD_some]
    rw [he, List.take_append_drop]

lemma Delivered.read {irs : UInt32} {S got buf : List UInt8} {tsk tsk' : TcpSock} {len : ℤ}
    (hd : Delivered irs S got tsk) (h : tcpReadBuf tsk len = .ok (buf, tsk')) :
    Delivered irs S (got ++ buf) tsk' ∧ tsk'.rcvReass = tsk.rcvReass := by
  obtain ⟨hw, hbytes, hq, hnxt⟩ := tcpReadBuf_spec hd.buf h
  obtain ⟨k, hk, hn, hb⟩ := hd.bytes
  exact ⟨⟨hw, k, hk, hnxt ▸ hn, by rw [List.append_assoc, hbytes, hb]⟩, hq⟩

lemma Run.delivered {irs : UInt32} {S got : List UInt8} {tsk : TcpSock}
    (hS : irs.toNat + 1 + S.length < 2 ^ 32) (h : Run irs S tsk got) :
    Delivered irs S got tsk ∧ ∀ trh ∈ tsk.rcvReass, Sound irs S trh := by
  induction h with
  | start h => exact ⟨h.delivered, by simp [h.rcvReass]⟩
  | segment _ _ _ _ _ hc hl ht ih =>
    obtain ⟨hd, hq⟩ := ih.1.tcpRecvText hS ih.2 hc hl ht
    exact ⟨hd.delivered, hq⟩
  | read _ ht ih =>
    obtain ⟨hd, he⟩ := ih.1.read ht
    exact ⟨hd, he ▸ ih.2⟩
  | pushed _ ih =>
    simp only [tcpEndPush]
    split_ifs
    · exact ⟨⟨ih.1.buf, ih.1.bytes⟩, ih.2⟩
    · exact ih

theorem run_bytes {irs : UInt32} {S got : List UInt8} {tsk : TcpSock}
    (hS : irs.toNat + 1 + S.length < 2 ^ 32) (h : Run irs S tsk got) :
    irs.toNat + 1 ≤ tsk.rcvNxt.toNat ∧ tsk.rcvNxt.toNat - irs.toNat - 1 ≤ S.length ∧
      got ++ held tsk = S.take (tsk.rcvNxt.toNat - irs.toNat - 1) := by
  obtain ⟨k, hk, hn, hb⟩ := (h.delivered hS).1.bytes
  rw [hn, show irs.toNat + 1 + k - irs.toNat - 1 = k by omega]
  exact ⟨by omega, hk, hb⟩

def textSegment (seq : UInt32) (text : List UInt8) : TcpSegment where
  seq := seq
  ack := 0
  lastseq := seq + UInt32.ofNat text.length - 1
  len := UInt32.ofNat text.length
  dlen := UInt32.ofNat text.length
  wnd := 0
  text := text
  iphdrSrc := 0
  iphdrDst := 0
  tcphdrSrc := 0
  tcphdrDst := 0
  fin := false
  syn := false
  rst := false
  psh := true
  ackBit := true

def freshSock : TcpSock := { tcpAllocSock with state := .established, rcvNxt := 101, rcvWnd := 8 }

theorem run_bytes_reordered : ∃ tsk, Run 100 [1, 2, 3, 4] tsk [1, 2, 3] ∧
    [1, 2, 3] ++ held tsk = [1, 2, 3, 4].take (tsk.rcvNxt.toNat - (100 : UInt32).toNat - 1) ∧
    held tsk = [4] := by
  have h0 : Run 100 [1, 2, 3, 4] freshSock [] :=
    .start ⟨rfl, rfl, by simp [BufWf, freshSock, tcpAllocSock], rfl, rfl⟩
  have h1 := @Run.segment _ _ _ _ (textSegment 103 [3, 4]) (allocPkb 0 0) _ h0 rfl rfl rfl rfl
    ⟨2, rfl, by decide, rfl⟩ (by decide) rfl
  have h2 := @Run.segment _ _ _ _ (textSegment 101 [1, 2, 3]) (allocPkb 1 0) _ h1 rfl rfl rfl rfl
    ⟨0, rfl, by decide, rfl⟩ (by decide) rfl
  have h3 := @Run.read _ _ _ _ _ _ 3 h2 rfl
  exact ⟨_, h3, (run_bytes (by decide) h3).2.2, rfl⟩

end Tapip.Tcp.Stream
