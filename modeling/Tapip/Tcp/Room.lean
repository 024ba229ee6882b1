import Tapip.Tcp.ReassQueue

/-! A sock that offers the room in its buffer as window, and segments that overlap nothing. -/

namespace Tapip.Tcp.Room

open Net.Pkb Lib Foundation.Program Foundation.Tiling Text Tcp.Stream ReassQueue

def Roomy (tsk : TcpSock) : Prop :=
  match tsk.rcvBuf with
  | none => 12 + tsk.rcvWnd.toNat < 2 ^ 31
  | some c => Wf c ∧ c.size < 2 ^ 31 ∧ cbufFree c = tsk.rcvWnd.toNat

def wrote (tsk : TcpSock) (c : Cbuf) (k : ℕ) : TcpSock :=
  { tsk with
    rcvBuf := some c
    rcvWnd := tsk.rcvWnd - UInt32.ofNat k
    rcvNxt := tsk.rcvNxt + UInt32.ofNat k }

variable {tsk : TcpSock}

section Write

variable {data : List UInt8} {len : UInt32}

lemma toInt_of_lt (h : len.toNat < 2 ^ 31) : toInt len = len.toNat := if_pos h

lemma rcvWnd_sub {w : UInt32} {k : ℕ} (h : k ≤ w.toNat) : (w - UInt32.ofNat k).toNat = w.toNat - k := by
  have hofNat : (UInt32.ofNat k).toNat = k := UInt32.toNat_ofNat_of_lt' (h.trans_lt w.toNat_lt)
  have hle : UInt32.ofNat k ≤ w := UInt32.le_iff_toNat_le.mpr (hofNat.trans_le h)
  rw [UInt32.toNat_sub_of_le _ _ hle, hofNat]

lemma Roomy.rcvCbuf (h : Roomy tsk) : ∃ c, rcvCbuf tsk = .ok c ∧ Wf c ∧ c.size < 2 ^ 31 ∧ contents c = held tsk ∧
      cbufFree c = tsk.rcvWnd.toNat := by
  cases hb : tsk.rcvBuf with
  | none =>
    simp only [Roomy, hb] at h
    have hint : toInt tsk.rcvWnd = tsk.rcvWnd.toNat := toInt_of_lt (by omega)
    have halloc : allocCbuf (toInt tsk.rcvWnd) =
        .ok ⟨0, 0, tsk.rcvWnd.toNat, List.replicate tsk.rcvWnd.toNat 0⟩ := by
      rw [allocCbuf, hint, if_neg (by omega)]
      simp
    obtain ⟨hw, hc⟩ := allocCbuf_wf halloc
    exact ⟨_, by simpa [Text.rcvCbuf, hb] using halloc, hw, by simp only; omega, by simp [held, hb, hc],
      by simp [cbufFree, cbufUsed]⟩
  | some c =>
    simp only [Roomy, hb] at h
    exact ⟨c, by simp [Text.rcvCbuf, hb], h.1, h.2.1, by simp [held, hb], h.2.2⟩

lemma Roomy.tcpWriteBuf (h : Roomy tsk) (hdata : len.toNat ≤ data.length) (hlen : len.toNat < 2 ^ 31) :
    ∃ c, tcpWriteBuf tsk data len =
        .ok ((min tsk.rcvWnd.toNat len.toNat : ℕ), wrote tsk c (min tsk.rcvWnd.toNat len.toNat)) ∧
      contents c = held tsk ++ data.take (min tsk.rcvWnd.toNat len.toNat) ∧
      Roomy (wrote tsk c (min tsk.rcvWnd.toNat len.toNat)) := by
  obtain ⟨c, hc, hw, hint, he, hf⟩ := h.rcvCbuf
  have hsrc : toInt len ≤ data.length := by
    rw [toInt_of_lt hlen]
    omega
  obtain ⟨c', hwrite, hw', -, hsize, hcont⟩ := writeCbuf_spec hw hsrc
  obtain ⟨k, hk⟩ : ∃ k, k = min tsk.rcvWnd.toNat len.toNat := ⟨_, rfl⟩
  have hmin : min (cbufFree c) (toInt len) = k := by
    rw [hf, toInt_of_lt hlen]
    omega
  rw [hmin] at hwrite hcont
  rw [Int.toNat_natCast, he] at hcont
  rw [← hk]
  refine ⟨c', ?_, hcont, hw', hsize ▸ hint, ?_⟩
  · simp only [Text.tcpWriteBuf, hc, hwrite, ok_bind, pure_eq_ok]
    split_ifs with hpos
    · rfl
    · obtain rfl : k = 0 := by omega
      simp [wrote]
  · have hused := contents_length hw
    have hused' := contents_length hw'
    rw [hcont, List.length_append, List.length_take, ← he] at hused'
    have hwnd : (tsk.rcvWnd - UInt32.ofNat k).toNat = tsk.rcvWnd.toNat - k := rcvWnd_sub (by omega)
    simp only [wrote, hwnd, cbufFree, hsize] at hf ⊢
    omega

lemma Roomy.read {buf : List UInt8} {tsk' : TcpSock} {size : ℤ} (h : Roomy tsk) (hsize : 0 < size)
    (hread : tcpReadBuf tsk size = .ok (buf, tsk')) : Roomy tsk' := by
  obtain ⟨⟨bytes, curlen, rcvBuf⟩, hr, hread⟩ := bind_eq_ok.mp hread
  cases hread
  cases hb : tsk.rcvBuf with
  | none =>
    rw [hb] at hr
    obtain ⟨-, rfl, rfl⟩ := by simpa [readCbuf] using hr
    simpa [Roomy, hb, show UInt32.ofInt 0 = 0 from rfl] using h
  | some c =>
    simp only [Roomy, hb] at h
    obtain ⟨hw, hint, hf⟩ := h
    obtain ⟨c', hspec, hw', hs, hcont⟩ := readCbuf_spec size hw
    rw [hb, hspec] at hr
    obtain ⟨-, rfl, rfl⟩ := by simpa using hr
    refine ⟨hw', hs ▸ hint, ?_⟩
    have hused := contents_length hw
    have hused' := contents_length hw'
    rw [hcont, List.length_drop] at hused'
    obtain ⟨k, hk⟩ : ∃ k : ℕ, min (cbufUsed c) size = k := ⟨_, (Int.toNat_of_nonneg (by omega)).symm⟩
    rw [hk, Int.toNat_natCast] at hused'
    simp only [cbufFree] at hf ⊢
    rw [hk, hs, UInt32.toNat_add, UInt32.ofInt, UInt32.toNat_ofNat']
    omega

end Write

section Drain

variable {queue : List TcpReassHead}

structure Texts (queue : List TcpReassHead) : Prop where
  pos : ∀ trh ∈ queue, 0 < size trh
  lt : ∀ trh ∈ queue, size trh < 2 ^ 31

lemma wrote_rcvNxt {c : Cbuf} {k : ℕ} (h : tsk.rcvNxt.toNat + k < 2 ^ 32) :
    (wrote tsk c k).rcvNxt.toNat = tsk.rcvNxt.toNat + k := by
  simp only [wrote, UInt32.toNat_add, UInt32.toNat_ofNat']
  omega

lemma Roomy.writeReass (h : Roomy tsk) (hq : InOrder tsk.rcvNxt queue) (ht : Texts queue) (len : ℤ) :
    ∃ freed rest tsk' len', writeReass queue tsk len = .ok (freed, rest, tsk', len') ∧ Roomy tsk' ∧
      InOrder tsk'.rcvNxt rest ∧ rest <:+ queue ∧
      (tsk'.rcvWnd ≠ 0 → ∀ trh ∈ rest.head?, tsk'.rcvNxt < trh.seq) := by
  induction queue generalizing tsk len with
  | nil => exact ⟨[], [], tsk, len, rfl, h, hq, List.suffix_rfl, by simp⟩
  | cons trh queue ih =>
    simp only [Text.writeReass]
    have hge : tsk.rcvNxt.toNat ≤ first trh := hq.ge trh (by simp)
    split_ifs with hgt heq
    · exact ⟨_, _, _, _, rfl, h, hq, List.suffix_rfl, fun _ t hm => by
        cases hm
        exact hgt⟩
    · obtain ⟨c, hw, -, hr⟩ := h.tcpWriteBuf (hq.data trh (by simp)) (ht.lt trh (by simp))
      obtain ⟨k, hk⟩ : ∃ k, k = min tsk.rcvWnd.toNat trh.len.toNat := ⟨_, rfl⟩
      rw [← hk] at hw hr
      simp only [hw, ok_bind]
      have hpos : 0 < size trh := ht.pos trh (by simp)
      have hfit := hq.fits trh (by simp)
      have hfirst : first trh = tsk.rcvNxt.toNat := congrArg UInt32.toNat heq
      simp only [size] at hpos hfit
      have hnxt : (wrote tsk c k).rcvNxt.toNat = tsk.rcvNxt.toNat + k := wrote_rcvNxt (by omega)
      obtain ⟨hlater, hordered⟩ := List.pairwise_cons.mp hq.ordered
      split_ifs with hz
      · obtain rfl : k = 0 := by omega
        refine ⟨_, _, _, _, rfl, hr, ⟨hq.ordered, ?_, hq.fits, hq.data⟩, List.suffix_rfl, ?_⟩
        · simpa [wrote] using hq.ge
        · intro hwnd
          have hzero : tsk.rcvWnd = 0 := UInt32.toNat_inj.mp (by simp; omega)
          simp [wrote, hzero] at hwnd
      · have hq' : InOrder (wrote tsk c k).rcvNxt queue := by
          refine ⟨hordered, fun t hm => ?_, fun t hm => hq.fits t (by simp [hm]),
            fun t hm => hq.data t (by simp [hm])⟩
          have := hlater t hm
          simp only [size] at this
          omega
        obtain ⟨freed, rest, tsk', len', hrun, hr', hi, hs, hhead⟩ := ih hr hq'
          ⟨fun t hm => ht.pos t (by simp [hm]), fun t hm => ht.lt t (by simp [hm])⟩ (len + k)
        refine ⟨trh.pkb :: freed, rest, tsk', len', by rw [hrun]; rfl, hr', hi,
          hs.trans (List.suffix_cons _ _), hhead⟩
    · exact absurd (UInt32.toNat_inj.mp (Nat.le_antisymm (UInt32.not_lt.mp hgt) hge)) heq

end Drain

variable {seg : TcpSegment}

section Place

variable {nseq : UInt32}

structure Whole (seg : TcpSegment) : Prop where
  pos : 0 < seg.dlen.toNat
  lt : seg.dlen.toNat < 2 ^ 31
  fits : seg.seq.toNat + seg.dlen.toNat < 2 ^ 32
  text : seg.dlen.toNat ≤ seg.text.length

def Apart (seg : TcpSegment) (trh : TcpReassHead) : Prop :=
  seg.seq.toNat + seg.dlen.toNat ≤ first trh ∨ first trh + size trh ≤ seg.seq.toNat

instance (seg : TcpSegment) (trh : TcpReassHead) : Decidable (Apart seg trh) :=
  inferInstanceAs (Decidable (_ ∨ _))

def Leads (tsk : TcpSock) (seg : TcpSegment) : Prop := ∃ trh ∈ tsk.rcvReass.head?, seg.seq < trh.seq

def cut (nseq : UInt32) (seg : TcpSegment) : TcpSegment :=
  { seg with
    dlen := seg.dlen - (nseq - seg.seq)
    text := seg.text.drop (nseq - seg.seq).toNat
    seq := nseq }

def entry (pkb : Pkbuf) (seg : TcpSegment) : TcpReassHead := ⟨pkb, seg.text, seg.seq, seg.dlen⟩

lemma insertSegment_run {front back rest : List TcpReassHead} {freed : List Pkbuf}
    {tsk' : TcpSock} {pkb : Pkbuf} {len : ℤ}
    (hrun : writeReass (front ++ entry pkb seg :: back) tsk 0 = .ok (freed, rest, tsk', len)) :
    insertSegment tsk front ⟨[], back, seg, false⟩ pkb =
      .ok ⟨{ tsk' with rcvReass := rest, push := tsk'.push || (decide (len > 0) && seg.psh) },
        overlay seg, true, freed⟩ := by
  simp only [entry] at hrun
  simp only [insertSegment, hrun, ok_bind]
  rfl

lemma adjacentSegmentHead_of_le (h : nseq ≤ seg.seq) : adjacentSegmentHead nseq seg = some seg :=
  if_neg (UInt32.not_lt.mpr h)

lemma toNat_sub_of_lt (h : seg.seq < nseq) : (nseq - seg.seq).toNat = nseq.toNat - seg.seq.toNat :=
  UInt32.toNat_sub_of_le _ _ (UInt32.le_of_lt h)

lemma adjacentSegmentHead_of_end_le (h : seg.seq < nseq)
    (hend : seg.seq.toNat + seg.dlen.toNat ≤ nseq.toNat) : adjacentSegmentHead nseq seg = none := by
  have hle : seg.dlen ≤ nseq - seg.seq := by
    rw [UInt32.le_iff_toNat_le, toNat_sub_of_lt h]
    omega
  rw [adjacentSegmentHead, if_pos h, if_pos hle]

lemma adjacentSegmentHead_of_lt_end (h : seg.seq < nseq) (hend : nseq.toNat < seg.seq.toNat + seg.dlen.toNat) :
    adjacentSegmentHead nseq seg = some (cut nseq seg) := by
  have hnat := UInt32.lt_iff_toNat_lt.mp h
  have hlt : ¬ seg.dlen ≤ nseq - seg.seq := by
    rw [UInt32.le_iff_toNat_le, toNat_sub_of_lt h]
    omega
  rw [adjacentSegmentHead, if_pos h, if_neg hlt]
  rfl

lemma Whole.cut (hs : Whole seg) (h : seg.seq < nseq) (hend : nseq.toNat < seg.seq.toNat + seg.dlen.toNat) :
    Whole (cut nseq seg) ∧
      (cut nseq seg).seq.toNat + (cut nseq seg).dlen.toNat = seg.seq.toNat + seg.dlen.toNat := by
  have hsub := toNat_sub_of_lt h
  have hlt := UInt32.lt_iff_toNat_lt.mp h
  have hle : nseq - seg.seq ≤ seg.dlen := by
    rw [UInt32.le_iff_toNat_le, hsub]
    omega
  have hdlen : (Room.cut nseq seg).dlen.toNat = seg.dlen.toNat - (nseq.toNat - seg.seq.toNat) := by
    rw [← hsub]
    exact UInt32.toNat_sub_of_le _ _ hle
  have hseq : (Room.cut nseq seg).seq.toNat = nseq.toNat := rfl
  have htext : (Room.cut nseq seg).text.length = seg.text.length - (nseq.toNat - seg.seq.toNat) := by
    rw [← hsub]
    exact List.length_drop
  obtain ⟨h1, h2, h3, h4⟩ := hs
  exact ⟨⟨by omega, by omega, by omega, by omega⟩, by omega⟩

lemma trimTail_of_end_le {after : List TcpReassHead} (hs : Whole seg)
    (hfits : ∀ trh ∈ after, first trh + size trh < 2 ^ 32) (hpos : ∀ trh ∈ after, 0 < size trh)
    (hle : ∀ trh ∈ after, seg.seq.toNat + seg.dlen.toNat ≤ first trh) :
    trimTail seg after = .ok ⟨[], after, seg, false⟩ := by
  cases after with
  | nil => rfl
  | cons trh after =>
    have h1 := hfits trh (by simp)
    have h2 := hpos trh (by simp)
    have h3 := hle trh (by simp)
    simp only [first, size] at h1 h2 h3
    have hend : (seg.seq + seg.dlen).toNat = seg.seq.toNat + seg.dlen.toNat := by
      rw [UInt32.toNat_add, Nat.mod_eq_of_lt hs.fits]
    have hend' : (trh.seq + trh.len).toNat = trh.seq.toNat + trh.len.toNat := by
      rw [UInt32.toNat_add, Nat.mod_eq_of_lt h1]
    rw [trimTail, if_pos, if_neg]
    · rw [gt_iff_lt, UInt32.lt_iff_toNat_lt, hend]
      omega
    · rw [UInt32.lt_iff_toNat_lt, hend, hend']
      omega

end Place

section Insert

structure Orderly (tsk : TcpSock) : Prop where
  roomy : Roomy tsk
  order : InOrder tsk.rcvNxt tsk.rcvReass
  texts : Texts tsk.rcvReass

structure Fresh (tsk : TcpSock) (seg : TcpSegment) : Prop where
  whole : Whole seg
  ge : tsk.rcvNxt.toNat ≤ seg.seq.toNat
  apart : ∀ trh ∈ tsk.rcvReass, Apart seg trh

def before (tsk : TcpSock) (seg : TcpSegment) : List TcpReassHead :=
  tsk.rcvReass.takeWhile (fun trh => decide (trh.seq ≤ seg.seq))

def after (tsk : TcpSock) (seg : TcpSegment) : List TcpReassHead :=
  tsk.rcvReass.dropWhile (fun trh => decide (trh.seq ≤ seg.seq))

lemma before_append_after : before tsk seg ++ after tsk seg = tsk.rcvReass :=
  List.takeWhile_append_dropWhile

lemma Fresh.before_le (h : Fresh tsk seg) : ∀ trh ∈ before tsk seg, first trh + size trh ≤ seg.seq.toNat := by
  intro trh hm
  have hle : trh.seq ≤ seg.seq := by simpa using List.mem_takeWhile_imp hm
  have hle' := UInt32.le_iff_toNat_le.mp hle
  have := h.whole.pos
  cases h.apart trh (List.takeWhile_subset _ hm) with
  | inl h =>
    simp only [first] at h
    omega
  | inr h => exact h

lemma lt_after_head : ∀ trh ∈ (after tsk seg).head?, seg.seq < trh.seq := by
  intro trh hm
  have := List.head?_dropWhile_not (fun trh : TcpReassHead => decide (trh.seq ≤ seg.seq)) tsk.rcvReass
  rw [after] at hm
  rw [Option.mem_def.mp hm] at this
  simpa [UInt32.not_le] using this

lemma Fresh.le_after (h : Fresh tsk seg) (ho : Orderly tsk) :
    ∀ trh ∈ after tsk seg, seg.seq.toNat + seg.dlen.toNat ≤ first trh := by
  have hordered : Ordered first size (after tsk seg) :=
    ho.order.ordered.sublist (List.dropWhile_sublist _)
  have hge : ∀ trh ∈ after tsk seg, seg.seq.toNat + 1 ≤ first trh :=
    after_ge hordered fun trh hm => UInt32.lt_iff_toNat_lt.mp (lt_after_head trh hm)
  intro trh hm
  have := hge trh hm
  cases h.apart trh (List.dropWhile_subset _ hm) with
  | inl h => exact h
  | inr h => omega

lemma leads_of_before_nil (hb : before tsk seg = []) (ha : after tsk seg ≠ []) : Leads tsk seg := by
  have hsplit := @before_append_after tsk seg
  rw [hb, List.nil_append] at hsplit
  cases hc : after tsk seg with
  | nil => exact absurd hc ha
  | cons trh rest =>
    refine ⟨trh, ?_, lt_after_head trh (by rw [hc]; rfl)⟩
    rw [← hsplit, hc]
    rfl

lemma Leads.before_nil (h : Leads tsk seg) : before tsk seg = [] ∧ after tsk seg = tsk.rcvReass := by
  obtain ⟨trh, hm, hlt⟩ := h
  cases hq : tsk.rcvReass with
  | nil => simp [hq] at hm
  | cons t rest =>
    obtain rfl : t = trh := by simpa [hq] using hm
    have hnot : ¬ t.seq ≤ seg.seq := UInt32.not_le.mpr hlt
    simp [before, after, hq, hnot]

lemma Leads.isEmpty (h : Leads tsk seg) : tsk.rcvReass.isEmpty = false := by
  obtain ⟨trh, hm, -⟩ := h
  cases hq : tsk.rcvReass with
  | nil => simp [hq] at hm
  | cons t rest => rfl

lemma tcpSegmentReass_kept (pkb : Pkbuf) (ho : Orderly tsk) (h : Fresh tsk seg)
    (hkeep : Leads tsk seg → tsk.sndWnd + tsk.sndUp ≤ seg.seq) :
    tcpSegmentReass tsk seg pkb = insertSegment tsk (before tsk seg) ⟨[], after tsk seg, seg, false⟩ pkb := by
  have hhead : (if (after tsk seg).isEmpty then some seg
      else adjacentSegmentHead (prevEnd tsk (before tsk seg)) seg) = some seg := by
    split_ifs with hempty
    · rfl
    · apply adjacentSegmentHead_of_le
      simp only [prevEnd]
      cases hlast : (before tsk seg).getLast? with
      | none =>
        have hnil := List.getLast?_eq_none_iff.mp hlast
        exact hkeep (leads_of_before_nil hnil (by simpa using hempty))
      | some prev =>
        have hm := List.mem_of_getLast? hlast
        rw [UInt32.le_iff_toNat_le, ho.order.toNat_end (List.takeWhile_subset _ hm)]
        exact h.before_le prev hm
  have htrim : trimTail seg (after tsk seg) = .ok ⟨[], after tsk seg, seg, false⟩ :=
    trimTail_of_end_le h.whole (fun t hm => ho.order.fits t (List.dropWhile_subset _ hm))
      (fun t hm => ho.texts.pos t (List.dropWhile_subset _ hm)) (h.le_after ho)
  rw [before, after] at hhead
  rw [after] at htrim
  simp only [tcpSegmentReass, hhead, htrim]
  rfl

section Leads

variable (pkb : Pkbuf) (hlead : Leads tsk seg) (hlt : seg.seq < tsk.sndWnd + tsk.sndUp)

include hlead hlt

lemma tcpSegmentReass_dropped (hend : seg.seq.toNat + seg.dlen.toNat ≤ (tsk.sndWnd + tsk.sndUp).toNat) :
    tcpSegmentReass tsk seg pkb = .ok ⟨tsk, seg, false, []⟩ := by
  obtain ⟨hb, ha⟩ := hlead.before_nil
  rw [before] at hb
  rw [after] at ha
  have hne := hlead.isEmpty
  simp only [tcpSegmentReass, hb, ha, hne, prevEnd, List.getLast?_nil, Bool.false_eq_true, if_false,
    adjacentSegmentHead_of_end_le hlt hend]

lemma tcpSegmentReass_cut (ho : Orderly tsk) (h : Fresh tsk seg)
    (hend : (tsk.sndWnd + tsk.sndUp).toNat < seg.seq.toNat + seg.dlen.toNat) :
    tcpSegmentReass tsk seg pkb =
      insertSegment tsk [] ⟨[], tsk.rcvReass, cut (tsk.sndWnd + tsk.sndUp) seg, false⟩ pkb := by
  obtain ⟨hb, ha⟩ := hlead.before_nil
  obtain ⟨hwhole, hsame⟩ := h.whole.cut hlt hend
  have hle := h.le_after ho
  rw [ha, ← hsame] at hle
  have htrim := trimTail_of_end_le hwhole ho.order.fits ho.texts.pos hle
  rw [before] at hb
  rw [after] at ha
  have hne := hlead.isEmpty
  simp only [tcpSegmentReass, hb, ha, hne, prevEnd, List.getLast?_nil, Bool.false_eq_true, if_false,
    adjacentSegmentHead_of_lt_end hlt hend, htrim]
  rfl

end Leads

lemma InOrder.insert_entry {front back : List TcpReassHead} {n : UInt32} (pkb : Pkbuf)
    (hq : InOrder n (front ++ back)) (ht : Texts (front ++ back)) (hs : Whole seg)
    (hn : n.toNat ≤ seg.seq.toNat) (hf : ∀ trh ∈ front, first trh + size trh ≤ seg.seq.toNat)
    (hb : ∀ trh ∈ back, seg.seq.toNat + seg.dlen.toNat ≤ first trh) :
    InOrder n (front ++ entry pkb seg :: back) ∧ Texts (front ++ entry pkb seg :: back) := by
  have hmem : ∀ trh, trh ∈ front ++ entry pkb seg :: back → trh = entry pkb seg ∨ trh ∈ front ++ back := by
    intro trh hm
    simp only [List.mem_append, List.mem_cons] at hm ⊢
    rcases hm with h | h | h
    · exact .inr (.inl h)
    · exact .inl h
    · exact .inr (.inr h)
  refine ⟨⟨Ordered.insert hq.ordered hf hb, ?_, ?_, ?_⟩, ?_, ?_⟩
  all_goals
    intro trh hm
    cases hmem trh hm
  case refine_1.inl h => exact h ▸ hn
  case refine_1.inr h => exact hq.ge trh h
  case refine_2.inl h => exact h ▸ hs.fits
  case refine_2.inr h => exact hq.fits trh h
  case refine_3.inl h => exact h ▸ hs.text
  case refine_3.inr h => exact hq.data trh h
  case refine_4.inl h => exact h ▸ hs.pos
  case refine_4.inr h => exact ht.pos trh h
  case refine_5.inl h => exact h ▸ hs.lt
  case refine_5.inr h => exact ht.lt trh h

lemma Fresh.insert (pkb : Pkbuf) (h : Fresh tsk seg) (ho : Orderly tsk) :
    InOrder tsk.rcvNxt (before tsk seg ++ entry pkb seg :: after tsk seg) ∧
      Texts (before tsk seg ++ entry pkb seg :: after tsk seg) := by
  refine InOrder.insert_entry pkb ?_ ?_ h.whole h.ge h.before_le (h.le_after ho)
  · rw [before_append_after]
    exact ho.order
  · rw [before_append_after]
    exact ho.texts

lemma Fresh.insert_cut (pkb : Pkbuf) {nseq : UInt32} (h : Fresh tsk seg) (ho : Orderly tsk)
    (hlead : Leads tsk seg) (hlt : seg.seq < nseq) (hend : nseq.toNat < seg.seq.toNat + seg.dlen.toNat) :
    InOrder tsk.rcvNxt ([] ++ entry pkb (cut nseq seg) :: tsk.rcvReass) ∧
      Texts ([] ++ entry pkb (cut nseq seg) :: tsk.rcvReass) := by
  obtain ⟨hwhole, hsame⟩ := h.whole.cut hlt hend
  have hle := h.le_after ho
  rw [hlead.before_nil.2, ← hsame] at hle
  have hge : tsk.rcvNxt.toNat ≤ (cut nseq seg).seq.toNat :=
    h.ge.trans (UInt32.lt_iff_toNat_lt.mp hlt).le
  exact InOrder.insert_entry pkb ho.order ho.texts hwhole hge (by simp) hle

end Insert

end Tapip.Tcp.Room
