import Tapip.Foundation.Tiling
import Tapip.Tcp.Stream

/-! When the queue of waiting segments stays in order, so that delivery finds what it asserts. -/

namespace Tapip.Tcp.ReassQueue

open Net.Pkb Foundation.Program Foundation.Tiling Text Tcp.Stream

variable {rcvNxt : UInt32} {queue : List TcpReassHead} {n : ℕ}

def first (trh : TcpReassHead) : ℕ := trh.seq.toNat

def size (trh : TcpReassHead) : ℕ := trh.len.toNat

structure InOrder (rcvNxt : UInt32) (queue : List TcpReassHead) : Prop where
  ordered : Ordered first size queue
  ge : ∀ trh ∈ queue, rcvNxt.toNat ≤ first trh
  fits : ∀ trh ∈ queue, first trh + size trh < 2 ^ 32
  data : ∀ trh ∈ queue, size trh ≤ trh.data.length

lemma InOrder.nil (rcvNxt : UInt32) : InOrder rcvNxt [] :=
  ⟨.nil, by simp, by simp, by simp⟩

lemma InOrder.sublist {rest : List TcpReassHead} (h : InOrder rcvNxt queue)
    (hs : rest.Sublist queue) : InOrder rcvNxt rest :=
  ⟨h.ordered.sublist hs, fun t ht => h.ge t (hs.mem ht), fun t ht => h.fits t (hs.mem ht),
    fun t ht => h.data t (hs.mem ht)⟩

lemma InOrder.toNat_end (h : InOrder rcvNxt queue)
    {trh : TcpReassHead} (hm : trh ∈ queue) : (trh.seq + trh.len).toNat = first trh + size trh := by
  rw [UInt32.toNat_add]
  exact Nat.mod_eq_of_lt (h.fits trh hm)

lemma InOrder.writeReass {tsk : TcpSock} {len : ℤ} (hq : InOrder tsk.rcvNxt queue) (hw : BufWf tsk) :
    writeReass queue tsk len ≠ .error .assertion ∧
      ∀ freed rest tsk' len', writeReass queue tsk len = .ok (freed, rest, tsk', len') →
        InOrder tsk'.rcvNxt rest ∧ BufWf tsk' := by
  induction queue generalizing tsk len with
  | nil =>
    refine ⟨by simp [Text.writeReass], fun freed rest tsk' len' h => ?_⟩
    obtain ⟨-, rfl, rfl, -⟩ := by simpa [Text.writeReass] using h
    exact ⟨hq, hw⟩
  | cons trh queue ih =>
    simp only [Text.writeReass]
    have hge : tsk.rcvNxt.toNat ≤ first trh := hq.ge trh (by simp)
    have hdata : toInt trh.len ≤ trh.data.length := by
      have h1 := toInt_le trh.len
      have h2 := hq.data trh (by simp)
      simp only [size] at h2
      omega
    split_ifs with hgt heq
    · refine ⟨by simp, fun freed rest tsk' len' h => ?_⟩
      obtain ⟨-, rfl, rfl, -⟩ := by simpa using h
      exact ⟨hq, hw⟩
    · cases hwr : tcpWriteBuf tsk trh.data trh.len with
      | error e =>
        cases tcpWriteBuf_error hw hdata hwr
        simp
      | ok p =>
        obtain ⟨rlen, tsk1⟩ := p
        obtain ⟨hr, c, hc, -, rfl⟩ := tcpWriteBuf_spec hw hdata hwr
        have hr' : rlen.toNat ≤ size trh := by
          have := toInt_le trh.len
          simp only [size]
          omega
        have hfit : first trh + size trh < 2 ^ 32 := hq.fits trh (by simp)
        have heq' : first trh = tsk.rcvNxt.toNat := congrArg UInt32.toNat heq
        have hnxt : (tsk.rcvNxt + UInt32.ofNat rlen.toNat).toNat = first trh + rlen.toNat := by
          rw [UInt32.toNat_add, UInt32.toNat_ofNat']
          omega
        have hwf : BufWf { tsk with
            rcvBuf := some c
            rcvWnd := tsk.rcvWnd - UInt32.ofNat rlen.toNat
            rcvNxt := tsk.rcvNxt + UInt32.ofNat rlen.toNat } := by
          intro c' hc'
          cases hc'
          exact hc
        obtain ⟨hlater, hordered⟩ := List.pairwise_cons.mp hq.ordered
        simp only [ok_bind]
        split_ifs with hz
        · refine ⟨by simp, fun freed rest tsk' len' h => ?_⟩
          obtain ⟨-, rfl, rfl, -⟩ := by simpa using h
          refine ⟨⟨hq.ordered, ?_, hq.fits, hq.data⟩, hwf⟩
          simpa [show rlen.toNat = 0 by omega] using hq.ge
        · have hq' : InOrder (tsk.rcvNxt + UInt32.ofNat rlen.toNat) queue := by
            refine ⟨hordered, fun t ht => ?_, fun t ht => hq.fits t (by simp [ht]),
              fun t ht => hq.data t (by simp [ht])⟩
            have := hlater t ht
            omega
          obtain ⟨hne, hok⟩ := @ih _ (len + rlen) hq' hwf
          constructor
          · intro h
            rcases bind_eq_error.mp h with h | ⟨_, -, h⟩
            · exact hne h
            · simp at h
          · intro freed rest tsk' len' h
            obtain ⟨⟨freed2, rest2, tsk2, len2⟩, hrun, h⟩ := bind_eq_ok.mp h
            obtain ⟨-, rfl, rfl, -⟩ := by simpa using h
            exact hok _ _ _ _ hrun
    · exact absurd (UInt32.toNat_inj.mp (Nat.le_antisymm (UInt32.not_lt.mp hgt) hge)) heq

def startOf (tsk : TcpSock) (seg : TcpSegment) : ℕ := max seg.seq.toNat tsk.rcvNxt.toNat

/-- What the two searches of `tcp_segment_reass` do not check: a segment behind all others does not
begin inside the last one, and one before all others is not cut by the number that stands where a
predecessor would be. -/
structure Fits (wnd : UInt32) (tsk : TcpSock) (seg : TcpSegment) : Prop where
  last : ∀ trh ∈ tsk.rcvReass.getLast?, first trh ≤ startOf tsk seg →
    first trh + size trh ≤ startOf tsk seg
  head : ∀ trh ∈ tsk.rcvReass.head?, startOf tsk seg < first trh →
    (wnd + tsk.sndUp).toNat ≤ first trh ∨
      seg.seq.toNat + seg.dlen.toNat ≤ (wnd + tsk.sndUp).toNat

section Insert

variable {tsk : TcpSock} {seg seg' : TcpSegment} {before after : List TcpReassHead}

lemma ends_le_of_getLast? (h : Ordered first size queue) (hl : ∀ trh ∈ queue.getLast?, first trh + size trh ≤ n) :
    ∀ trh ∈ queue, first trh + size trh ≤ n := by
  induction queue using List.reverseRecOn with
  | nil => simp
  | append_singleton queue t _ =>
    have ht := hl t (by simp)
    obtain ⟨-, -, h3⟩ := List.pairwise_append.mp h
    intro trh hm
    rcases List.mem_append.mp hm with hm | hm
    · have := h3 trh hm t (by simp)
      omega
    · rw [List.mem_singleton.mp hm]
      exact ht

lemma after_ge (hq : Ordered first size after) (hh : ∀ trh ∈ after.head?, n ≤ first trh) :
    ∀ trh ∈ after, n ≤ first trh := by
  cases after with
  | nil => simp
  | cons t after =>
    have ht := hh t rfl
    intro trh hm
    rcases List.mem_cons.mp hm with rfl | hm
    · exact ht
    · have := (List.pairwise_cons.mp hq).1 trh hm
      omega

lemma Placed.clear (hp : Placed tsk seg before after seg') (hq : InOrder tsk.rcvNxt tsk.rcvReass)
    (hs : tsk.rcvNxt.toNat ≤ seg.seq.toNat) (hf : Fits tsk.sndWnd tsk seg) :
    (∀ trh ∈ before, first trh + size trh ≤ seg'.seq.toNat) ∧ ∀ trh ∈ after, seg'.seq.toNat ≤ first trh := by
  have hstart : startOf tsk seg = seg.seq.toNat := max_eq_left hs
  have ho := hq.ordered
  rw [hp.split] at ho
  obtain ⟨hob, hoa, hba⟩ := List.pairwise_append.mp ho
  have hh := hp.head
  cases after with
  | nil =>
    obtain rfl := by simpa using hh
    refine ⟨ends_le_of_getLast? hob fun trh hm => ?_, by simp⟩
    have hlast : trh ∈ tsk.rcvReass.getLast? := by rw [hp.split]; simpa using hm
    have hle := hp.before_le trh (List.mem_of_getLast? hm)
    have := hf.last trh hlast (by rw [hstart]; exact hle)
    rwa [hstart] at this
  | cons t after =>
    simp only [List.isEmpty_cons, Bool.false_eq_true, if_false] at hh
    obtain ⟨d, h1, h2, h3, hnseq, hd, -⟩ := adjacentSegmentHead_spec hh
    have hlt : seg.seq.toNat < first t := hp.lt_after t rfl
    have hle : seg'.seq.toNat ≤ first t ∧ ∀ trh ∈ before, first trh + size trh ≤ seg'.seq.toNat := by
      rcases List.eq_nil_or_concat before with rfl | ⟨front, prev, rfl⟩
      · refine ⟨?_, by simp⟩
        have hhead : t ∈ tsk.rcvReass.head? := by rw [hp.split]; rfl
        rcases hd with rfl | ⟨he, hpos⟩
        · omega
        · have hg : seg'.seq = tsk.sndWnd + tsk.sndUp := he
          rcases hf.head t hhead (by rw [hstart]; exact hlt) with hg' | hg'
          · rw [hg]
            exact hg'
          · rw [← hg] at hg'
            omega
      · have hprev : prev ∈ front.concat prev := by simp
        have hend : (prev.seq + prev.len).toNat = first prev + size prev :=
          hq.toNat_end (by rw [hp.split]; exact List.mem_append_left _ hprev)
        have hpe : prevEnd tsk (front.concat prev) = prev.seq + prev.len := by simp [prevEnd]
        rw [hpe, hend] at hnseq
        refine ⟨?_, ends_le_of_getLast? hob fun trh hm => ?_⟩
        · rcases hd with rfl | ⟨he, -⟩
          · omega
          · rw [he, hpe, hend]
            exact hba prev hprev t (by simp)
        · obtain rfl : prev = trh := by simpa using hm
          exact hnseq
    exact ⟨hle.2, after_ge hoa fun trh hm => by obtain rfl := Option.some.inj hm; exact hle.1⟩

lemma InOrder.insert {t : Trimmed} (pkb : Pkbuf) (hp : Placed tsk seg before after seg')
    (hq : InOrder tsk.rcvNxt tsk.rcvReass) (hs : tsk.rcvNxt.toNat ≤ seg.seq.toNat)
    (hf : Fits tsk.sndWnd tsk seg) (hfit : seg.seq.toNat + seg.dlen.toNat < 2 ^ 32)
    (htext : seg.dlen.toNat ≤ seg.text.length) (ht : trimTail seg' after = .ok t) :
    InOrder tsk.rcvNxt (before ++ t.rest) ∧
      InOrder tsk.rcvNxt (before ++ ⟨pkb, t.seg.text, t.seg.seq, t.seg.dlen⟩ :: t.rest) := by
  obtain ⟨hbefore, hafter⟩ := Placed.clear hp hq hs hf
  obtain ⟨d, h1, h2, h3⟩ := hp.trimmed
  obtain ⟨t', gone, ht', rfl, -, -, hseg, hcut⟩ := trimTail_spec seg' after
  cases ht.symm.trans ht'
  have hrest : InOrder tsk.rcvNxt (before ++ t.rest) := by
    refine hq.sublist ?_
    rw [hp.split]
    exact List.sublist_append_right gone t.rest |>.append_left before
  have hend : (seg'.seq + seg'.dlen).toNat = seg'.seq.toNat + seg'.dlen.toNat := by
    rw [UInt32.toNat_add, Nat.mod_eq_of_lt (by omega)]
  have hnext : t.seg.dlen.toNat ≤ seg'.dlen.toNat ∧
      ∀ trh ∈ t.rest.head?, seg'.seq.toNat + t.seg.dlen.toNat ≤ first trh := by
    rcases hcut with ⟨he, -, hle⟩ | ⟨trh, hm, hlo, -, hd, -⟩
    · rw [he]
      refine ⟨le_rfl, fun trh hm => ?_⟩
      rw [← hend]
      exact hle trh hm
    · have hle : seg'.seq.toNat ≤ trh.seq.toNat :=
        hafter trh (List.mem_append_right _ (List.mem_of_mem_head? hm))
      have hlo' : trh.seq.toNat < (seg'.seq + seg'.dlen).toNat := hlo
      have hsub : t.seg.dlen.toNat = trh.seq.toNat - seg'.seq.toNat := by
        rw [hd]
        exact UInt32.toNat_sub_of_le _ _ hle
      refine ⟨by omega, fun trh' hm' => ?_⟩
      cases Option.mem_unique hm hm'
      simp only [first]
      omega
  have hnew : ∀ trh ∈ t.rest, seg'.seq.toNat + t.seg.dlen.toNat ≤ first trh :=
    after_ge (List.pairwise_append.mp hrest.ordered).2.1 hnext.2
  rw [hseg]
  refine ⟨hrest, ?_, ?_, ?_, ?_⟩
  · exact Ordered.insert hrest.ordered hbefore hnew
  all_goals
    intro trh hm
    rcases List.mem_append.mp hm with hm | hm
    rotate_left
    rcases List.mem_cons.mp hm with rfl | hm
  · simp only [first]
    omega
  · exact hrest.ge trh (List.mem_append_right _ hm)
  · exact hrest.ge trh (List.mem_append_left _ hm)
  · simp only [first, size]
    omega
  · exact hrest.fits trh (List.mem_append_right _ hm)
  · exact hrest.fits trh (List.mem_append_left _ hm)
  · simp only [size, h3, List.length_drop]
    omega
  · exact hrest.data trh (List.mem_append_right _ hm)
  · exact hrest.data trh (List.mem_append_left _ hm)

lemma InOrder.tcpSegmentReass (pkb : Pkbuf) (hq : InOrder tsk.rcvNxt tsk.rcvReass)
    (hw : BufWf tsk) (hs : tsk.rcvNxt.toNat ≤ seg.seq.toNat) (hf : Fits tsk.sndWnd tsk seg)
    (hfit : seg.seq.toNat + seg.dlen.toNat < 2 ^ 32) (htext : seg.dlen.toNat ≤ seg.text.length) :
    tcpSegmentReass tsk seg pkb ≠ .error .assertion ∧
      ∀ r, tcpSegmentReass tsk seg pkb = .ok r → InOrder r.tsk.rcvNxt r.tsk.rcvReass ∧ BufWf r.tsk := by
  rcases tcpSegmentReass_cases tsk seg pkb with he | ⟨before, after, seg', t, hp, ht, he⟩
  · refine ⟨by simp [he], fun r h => ?_⟩
    cases he.symm.trans h
    exact ⟨hq, hw⟩
  obtain ⟨hrest, hins⟩ := InOrder.insert pkb hp hq hs hf hfit htext ht
  rw [he]
  split_ifs
  · refine ⟨by simp, fun r h => ?_⟩
    cases h
    exact ⟨hrest, hw⟩
  · obtain ⟨hne, hok⟩ := @InOrder.writeReass _ tsk 0 hins hw
    constructor
    · intro h
      rcases bind_eq_error.mp h with h | ⟨_, -, h⟩
      · exact hne h
      · simp at h
    · intro r h
      obtain ⟨⟨freed, rest, tsk', len⟩, hrun, h⟩ := bind_eq_ok.mp h
      cases h
      obtain ⟨hi, hb⟩ := hok _ _ _ _ hrun
      exact ⟨hi, hb⟩

lemma InOrder.tcpRecvText (pkb : Pkbuf) (hq : InOrder tsk.rcvNxt tsk.rcvReass) (hw : BufWf tsk)
    (hf : Fits tsk.sndWnd tsk seg) (hfit : seg.seq.toNat + seg.dlen.toNat < 2 ^ 32)
    (htext : seg.dlen.toNat ≤ seg.text.length) :
    tcpRecvText tsk seg pkb ≠ .error .assertion ∧
      ∀ r, tcpRecvText tsk seg pkb = .ok r → InOrder r.tsk.rcvNxt r.tsk.rcvReass ∧ BufWf r.tsk := by
  simp only [Text.tcpRecvText]
  split_ifs with h0
  · refine ⟨by simp, fun r h => ?_⟩
    cases h
    exact ⟨hq, hw⟩
  split
  · refine ⟨by simp, fun r h => ?_⟩
    cases h
    exact ⟨hq, hw⟩
  rename_i seg' hadj
  obtain ⟨d, h1, h2, h3, hn, hd, -⟩ := adjacentSegmentHead_spec hadj
  have hlen : seg'.dlen.toNat ≤ seg'.text.length := by
    rw [h3, List.length_drop]
    omega
  split_ifs with hfast
  · simp only [Bool.and_eq_true, decide_eq_true_eq, List.isEmpty_iff] at hfast
    have hint : toInt seg'.dlen ≤ seg'.text.length := by
      have := toInt_le seg'.dlen
      omega
    constructor
    · intro h
      rcases bind_eq_error.mp h with h | ⟨_, -, h⟩
      · exact absurd (tcpWriteBuf_error hw hint h) (by simp)
      · simp at h
    · intro r h
      obtain ⟨⟨rlen, tsk'⟩, hwr, h⟩ := bind_eq_ok.mp h
      cases h
      obtain ⟨-, c, hc, -, rfl⟩ := tcpWriteBuf_spec hw hint hwr
      refine ⟨?_, fun c' hc' => ?_⟩
      · simpa [hfast.2] using InOrder.nil _
      · cases hc'
        exact hc
  · have hstart : startOf tsk seg = seg'.seq.toNat := by
      simp only [startOf]
      rcases hd with rfl | ⟨he, -⟩
      · omega
      · rw [he]
        rw [he] at h1
        omega
    have hstart' : startOf tsk seg' = seg'.seq.toNat := max_eq_left hn
    have hf' : Fits tsk.sndWnd tsk seg' := by
      refine ⟨?_, ?_⟩
      · rw [hstart', ← hstart]
        exact hf.last
      · rw [hstart', ← hstart]
        intro trh hm hlt
        rcases hf.head trh hm hlt with h | h
        · exact .inl h
        · exact .inr (by omega)
    obtain ⟨hne, hok⟩ := InOrder.tcpSegmentReass pkb hq hw hn hf' (by omega) hlen
    constructor
    · intro h
      rcases bind_eq_error.mp h with h | ⟨_, -, h⟩
      · exact hne h
      · simp at h
    · intro r h
      obtain ⟨r', hr, h⟩ := bind_eq_ok.mp h
      cases h
      exact hok r' hr

end Insert

end Tapip.Tcp.ReassQueue
