import Tapip.Foundation.Resequence
import Tapip.Tcp.Room

/-! Segments of one text, in any order. -/

namespace Tapip.Tcp.AnyOrder

open Net.Pkb Lib Foundation.Program Foundation.Tiling Foundation.Resequence Text Tcp.Stream
open ReassQueue Room

def recvAll (tsk : TcpSock) : List (TcpSegment × Pkbuf) → Except Fault TcpSock
  | [] => .ok tsk
  | (seg, pkb) :: rest => do
    let r ← tcpRecvText tsk seg pkb
    recvAll r.tsk rest

def Divides : ℕ → List UInt8 → List (TcpSegment × Pkbuf) → Prop
  | _, S, [] => S = []
  | n, S, (seg, _) :: rest => seg.seq.toNat = n ∧ 0 < seg.dlen.toNat ∧ seg.dlen.toNat ≤ S.length ∧
      seg.text.take seg.dlen.toNat = S.take seg.dlen.toNat ∧
      Divides (n + seg.dlen.toNat) (S.drop seg.dlen.toNat) rest

/-- When `x` arrives, a later segment is there, and no earlier one waits for text in front of it. -/
def Exposed (pre : List (TcpSegment × Pkbuf)) (x : TcpSegment × Pkbuf) (post : List (TcpSegment × Pkbuf)) :
    Prop :=
  (∃ y ∈ pre, x.1.seq < y.1.seq) ∧ ∀ y ∈ pre, y.1.seq < x.1.seq → ∀ z ∈ post, y.1.seq < z.1.seq

def view (trh : TcpReassHead) : Piece UInt8 := ⟨first trh, trh.data.take (size trh)⟩

def piece (seg : TcpSegment) : Piece UInt8 := ⟨seg.seq.toNat, seg.text.take seg.dlen.toNat⟩

lemma view_entry (pkb : Pkbuf) (seg : TcpSegment) : view (entry pkb seg) = piece seg := rfl

lemma view_len {trh : TcpReassHead} (h : size trh ≤ trh.data.length) : (view trh).len = size trh := by
  simp only [Piece.len, view, List.length_take]
  omega

lemma piece_len {seg : TcpSegment} (h : Whole seg) : (piece seg).len = seg.dlen.toNat := by
  have := h.text
  simp only [Piece.len, piece, List.length_take]
  omega

structure Shows (base : List UInt8) (top : ℕ) (floor : UInt32) (l : Line UInt8) (tsk : TcpSock) : Prop where
  nxt : tsk.rcvNxt.toNat = l.nxt
  held : held tsk = base ++ l.out
  wait : tsk.rcvReass.map view = l.wait
  room : tsk.rcvNxt.toNat + tsk.rcvWnd.toNat = top
  floor : tsk.sndWnd + tsk.sndUp = floor
  orderly : Orderly tsk

section Step

variable {base out : List UInt8} {top : ℕ} {floor : UInt32} {l : Line UInt8} {tsk tsk' : TcpSock}
  {queue rest : List TcpReassHead} {freed : List Pkbuf} {len len' : ℤ}

lemma write_all {data : List UInt8} {n : UInt32} (h : Roomy tsk) (hdata : n.toNat ≤ data.length)
    (hn : n.toNat < 2 ^ 31) (hwnd : n.toNat ≤ tsk.rcvWnd.toNat) (hfit : tsk.rcvNxt.toNat + n.toNat < 2 ^ 32) :
    ∃ c, tcpWriteBuf tsk data n = .ok (n.toNat, wrote tsk c n.toNat) ∧ Roomy (wrote tsk c n.toNat) ∧
      Stream.held (wrote tsk c n.toNat) = Stream.held tsk ++ data.take n.toNat ∧
      (wrote tsk c n.toNat).rcvNxt.toNat = tsk.rcvNxt.toNat + n.toNat ∧
      (wrote tsk c n.toNat).rcvNxt.toNat + (wrote tsk c n.toNat).rcvWnd.toNat =
        tsk.rcvNxt.toNat + tsk.rcvWnd.toNat := by
  obtain ⟨c, hw, hc, hr⟩ := h.tcpWriteBuf hdata hn
  rw [Nat.min_eq_right hwnd] at hw hc hr
  have hnxt : (wrote tsk c n.toNat).rcvNxt.toNat = tsk.rcvNxt.toNat + n.toNat := wrote_rcvNxt hfit
  have hsub : (wrote tsk c n.toNat).rcvWnd.toNat = tsk.rcvWnd.toNat - n.toNat := rcvWnd_sub hwnd
  exact ⟨c, hw, hr, hc, hnxt, by omega⟩

lemma writeReass_deliver (h : Roomy tsk) (hq : InOrder tsk.rcvNxt queue) (ht : Texts queue)
    (hin : ∀ trh ∈ queue, first trh + size trh ≤ top) (hroom : tsk.rcvNxt.toNat + tsk.rcvWnd.toNat = top)
    (hheld : held tsk = base ++ out)
    (hrun : writeReass queue tsk len = .ok (freed, rest, tsk', len')) :
    tsk'.rcvNxt.toNat = (deliver (queue.map view) tsk.rcvNxt.toNat out).nxt ∧
      held tsk' = base ++ (deliver (queue.map view) tsk.rcvNxt.toNat out).out ∧
      rest.map view = (deliver (queue.map view) tsk.rcvNxt.toNat out).wait ∧
      tsk'.rcvNxt.toNat + tsk'.rcvWnd.toNat = top := by
  induction queue generalizing tsk out freed len len' with
  | nil =>
    obtain ⟨-, rfl, rfl, -⟩ := by simpa [writeReass] using hrun
    exact ⟨rfl, hheld, rfl, hroom⟩
  | cons trh queue ih =>
    have hge : tsk.rcvNxt.toNat ≤ first trh := hq.ge trh (by simp)
    have hdata := hq.data trh (by simp)
    rw [List.map_cons, deliver]
    simp only [writeReass] at hrun
    split_ifs at hrun with hgt heq
    · obtain ⟨-, rfl, rfl, -⟩ := by simpa using hrun
      have hne : ¬ (view trh).start = tsk.rcvNxt.toNat := by
        have := UInt32.lt_iff_toNat_lt.mp hgt
        simp only [view, first]
        omega
      rw [if_neg hne]
      exact ⟨rfl, hheld, rfl, hroom⟩
    · have hfirst : (view trh).start = tsk.rcvNxt.toNat := congrArg UInt32.toNat heq
      have hpos : 0 < size trh := ht.pos trh (by simp)
      have hend := hin trh (by simp)
      have hfit := hq.fits trh (by simp)
      simp only [view, first, size] at hfirst hend hfit hpos
      obtain ⟨c, hw, hr, hheld', hnxt, hroom'⟩ := write_all h hdata (ht.lt trh (by simp)) (by omega) (by omega)
      simp only [hw, ok_bind] at hrun
      rw [if_neg (by omega)] at hrun
      obtain ⟨⟨freed2, rest2, tsk2, len2⟩, hrun2, hrun⟩ := bind_eq_ok.mp hrun
      obtain ⟨-, rfl, rfl, -⟩ := by simpa using hrun
      obtain ⟨hlater, hordered⟩ := List.pairwise_cons.mp hq.ordered
      have hq' : InOrder (wrote tsk c trh.len.toNat).rcvNxt queue := by
        refine ⟨hordered, fun t hm => ?_, fun t hm => hq.fits t (by simp [hm]),
          fun t hm => hq.data t (by simp [hm])⟩
        have := hlater t hm
        simp only [size, first] at this ⊢
        omega
      have hstart : (view trh).start = tsk.rcvNxt.toNat := hfirst
      rw [if_pos hstart, view_len hdata]
      have hout : held (wrote tsk c trh.len.toNat) = base ++ (out ++ (view trh).data) := by
        rw [hheld', hheld, List.append_assoc]
        rfl
      have := ih hr hq' ⟨fun t hm => ht.pos t (by simp [hm]), fun t hm => ht.lt t (by simp [hm])⟩
        (fun t hm => hin t (by simp [hm])) (hroom'.trans hroom) hout hrun2
      rwa [hnxt] at this

variable {seg : TcpSegment}

lemma Shows.insertSegment {front back : List TcpReassHead} (pkb : Pkbuf) (h : Shows base top floor l tsk)
    (hq : InOrder tsk.rcvNxt (front ++ entry pkb seg :: back)) (ht : Texts (front ++ entry pkb seg :: back))
    (hin : ∀ trh ∈ front ++ entry pkb seg :: back, first trh + size trh ≤ top) :
    ∃ r, insertSegment tsk front ⟨[], back, seg, false⟩ pkb = .ok r ∧
      Shows base top floor (deliver (front.map view ++ piece seg :: back.map view) l.nxt l.out) r.tsk := by
  obtain ⟨freed, rest, tsk', len, hrun, hr, hi, hs, -⟩ := h.orderly.roomy.writeReass hq ht 0
  obtain ⟨hnxt, hheld, hwait, hroom⟩ :=
    writeReass_deliver h.orderly.roomy hq ht hin h.room h.held hrun
  obtain ⟨_, _, _, hsame⟩ := (writeReass_drains hrun).writes
  rw [List.map_append, List.map_cons, view_entry, h.nxt] at hnxt hheld hwait
  refine ⟨_, insertSegment_run hrun, hnxt, hheld, hwait, hroom, ?_, hr, hi, ?_, ?_⟩
  · rw [hsame]
    exact h.floor
  · exact fun trh hm => ht.pos trh (hs.subset hm)
  · exact fun trh hm => ht.lt trh (hs.subset hm)

lemma Shows.leads_iff (h : Shows base top floor l tsk) :
    Room.Leads tsk seg ↔ Foundation.Resequence.Leads (piece seg) l.wait := by
  rw [← h.wait]
  cases hq : tsk.rcvReass with
  | nil => simp [Room.Leads, Foundation.Resequence.Leads, hq]
  | cons trh queue =>
    simp [Room.Leads, Foundation.Resequence.Leads, hq, UInt32.lt_iff_toNat_lt, view, piece, first]

lemma Shows.placed (h : Shows base top floor l tsk) :
    (before tsk seg).map view ++ piece seg :: (after tsk seg).map view = place (piece seg) l.wait := by
  have hp : (fun trh : TcpReassHead => decide (trh.seq ≤ seg.seq)) =
      (fun p : Piece UInt8 => decide (p.start ≤ (piece seg).start)) ∘ view := by
    funext trh
    simp only [Function.comp, UInt32.le_iff_toNat_le]
    rfl
  rw [before, after, Foundation.Resequence.place, ← h.wait, List.takeWhile_map, List.dropWhile_map, hp]

lemma piece_cut {nseq : UInt32} (hs : Whole seg) (hlt : seg.seq < nseq)
    (hend : nseq.toNat < seg.seq.toNat + seg.dlen.toNat) :
    piece (cut nseq seg) = ⟨nseq.toNat, (piece seg).data.drop (nseq.toNat - (piece seg).start)⟩ := by
  have hlt' := UInt32.lt_iff_toNat_lt.mp hlt
  have hsame := (hs.cut hlt hend).2
  have hdlen : (cut nseq seg).dlen.toNat = seg.dlen.toNat - (nseq.toNat - seg.seq.toNat) := by
    have : (cut nseq seg).seq.toNat = nseq.toNat := rfl
    omega
  rw [piece, hdlen]
  simp only [cut, piece, toNat_sub_of_lt hlt, List.drop_take]

lemma Shows.tcpSegmentReass (pkb : Pkbuf) (h : Shows base top floor l tsk) (hf : Fresh tsk seg)
    (htop : seg.seq.toNat + seg.dlen.toNat ≤ top) (hin : ∀ trh ∈ tsk.rcvReass, first trh + size trh ≤ top) :
    ∃ r, tcpSegmentReass tsk seg pkb = .ok r ∧ Shows base top floor (arrive floor.toNat l (piece seg)) r.tsk := by
  have hinsert : ∀ front back seg', Whole seg' → seg'.seq.toNat + seg'.dlen.toNat ≤ top →
      front ++ back = tsk.rcvReass →
      ∀ trh ∈ front ++ entry pkb seg' :: back, first trh + size trh ≤ top := by
    intro front back seg' hs' hend heq trh hm
    rw [← heq] at hin
    simp only [List.mem_append, List.mem_cons] at hm hin
    rcases hm with hm | rfl | hm
    · exact hin trh (.inl hm)
    · exact hend
    · exact hin trh (.inr hm)
  have hkept : (Room.Leads tsk seg → tsk.sndWnd + tsk.sndUp ≤ seg.seq) →
      ∃ r, Text.tcpSegmentReass tsk seg pkb = .ok r ∧
        Shows base top floor (deliver (place (piece seg) l.wait) l.nxt l.out) r.tsk := by
    intro hkeep
    rw [tcpSegmentReass_kept pkb h.orderly hf hkeep, ← h.placed]
    obtain ⟨hq, ht⟩ := hf.insert pkb h.orderly
    exact h.insertSegment pkb hq ht (hinsert _ _ seg hf.whole htop before_append_after)
  rw [arrive]
  rw [h.floor] at hkept
  split_ifs with hlead hdrop
  · have hlt : seg.seq < tsk.sndWnd + tsk.sndUp := h.floor ▸ UInt32.lt_iff_toNat_lt.mpr hlead.2
    rw [piece_len hf.whole] at hdrop
    exact ⟨_, tcpSegmentReass_dropped pkb (h.leads_iff.mpr hlead.1) hlt (h.floor ▸ hdrop), h⟩
  · have hlt : seg.seq < tsk.sndWnd + tsk.sndUp := h.floor ▸ UInt32.lt_iff_toNat_lt.mpr hlead.2
    rw [piece_len hf.whole, not_le] at hdrop
    have hend : (tsk.sndWnd + tsk.sndUp).toNat < seg.seq.toNat + seg.dlen.toNat := h.floor ▸ hdrop
    have hlead' := h.leads_iff.mpr hlead.1
    rw [tcpSegmentReass_cut pkb hlead' hlt h.orderly hf hend, ← h.wait]
    obtain ⟨hq, ht⟩ := hf.insert_cut pkb h.orderly hlead' hlt hend
    obtain ⟨hwhole, hsame⟩ := hf.whole.cut hlt hend
    have hshow := h.insertSegment pkb hq ht (hinsert [] _ _ hwhole (hsame ▸ htop) rfl)
    rw [piece_cut hf.whole hlt hend, h.floor] at hshow
    exact h.floor ▸ hshow
  · apply hkept
    intro hl
    by_contra hlt
    exact hlead ⟨h.leads_iff.mp hl, UInt32.lt_iff_toNat_lt.mp (UInt32.not_le.mp hlt)⟩

lemma arrive_empty {x : Piece UInt8} (n : ℕ) (hwait : l.wait = []) (hx : x.start = l.nxt) :
    arrive n l x = ⟨l.nxt + x.len, l.out ++ x.data, []⟩ := by
  simp [arrive, Foundation.Resequence.Leads, Foundation.Resequence.place, deliver, hwait, hx]

lemma Shows.tcpRecvText (pkb : Pkbuf) (h : Shows base top floor l tsk) (hf : Fresh tsk seg)
    (htop : seg.seq.toNat + seg.dlen.toNat ≤ top) (hin : ∀ trh ∈ tsk.rcvReass, first trh + size trh ≤ top) :
    ∃ r, tcpRecvText tsk seg pkb = .ok r ∧ Shows base top floor (arrive floor.toNat l (piece seg)) r.tsk := by
  have hroom := h.room
  have hpos := hf.whole.pos
  have hge := hf.ge
  have hwnd : tsk.rcvWnd ≠ 0 := by
    intro hzero
    have hz : tsk.rcvWnd.toNat = 0 := congrArg UInt32.toNat hzero
    omega
  simp only [Text.tcpRecvText, if_neg hwnd, adjacentSegmentHead_of_le hge]
  split_ifs with hfast
  · simp only [Bool.and_eq_true, decide_eq_true_eq, List.isEmpty_iff] at hfast
    obtain ⟨hseq, hempty⟩ := hfast
    have hseq' : tsk.rcvNxt.toNat = seg.seq.toNat := congrArg UInt32.toNat hseq
    have hfits := hf.whole.fits
    obtain ⟨c, hw, hr, hheld, hnxt, hroom'⟩ :=
      write_all h.orderly.roomy hf.whole.text hf.whole.lt (by omega) (by omega)
    have hwait : l.wait = [] := by rw [← h.wait, hempty, List.map_nil]
    rw [arrive_empty _ hwait (hseq'.symm.trans h.nxt), hw]
    refine ⟨_, rfl, ?_, ?_, ?_, hroom'.trans hroom, h.floor, hr, ?_, ?_, ?_⟩
    · rw [piece_len hf.whole, ← h.nxt]
      exact hnxt
    · rw [← List.append_assoc, ← h.held]
      exact hheld
    · simp [wrote, hempty]
    · simpa [wrote, hempty] using InOrder.nil _
    · simp [wrote, hempty]
    · simp [wrote, hempty]
  · obtain ⟨r, hrun, hs⟩ := h.tcpSegmentReass pkb hf htop hin
    rw [hrun]
    exact ⟨_, rfl, hs.nxt, hs.held, hs.wait, hs.room, hs.floor, hs.orderly.roomy, hs.orderly.order,
      hs.orderly.texts⟩

end Step

section Run

variable {base S : List UInt8} {a n top : ℕ} {floor : UInt32} {l : Line UInt8} {tsk : TcpSock}
  {parts : List (Piece UInt8)}

def pieces (segs : List (TcpSegment × Pkbuf)) : List (Piece UInt8) := segs.map fun p => piece p.1

lemma Shows.recvAll {pre post : List (TcpSegment × Pkbuf)}
    (hsh : Shuffle a (pieces (pre ++ post)) parts) (hwhole : ∀ p ∈ post, Whole p.1)
    (htop : a + total Piece.len parts ≤ top) (hsane : Sane a (pieces pre) l)
    (h : Shows base top floor l tsk) :
    ∃ tsk', recvAll tsk post = .ok tsk' ∧
      Shows base top floor ((pieces post).foldl (arrive floor.toNat) l) tsk' := by
  induction post generalizing pre l tsk with
  | nil => exact ⟨tsk, rfl, h⟩
  | cons x post ih =>
    obtain ⟨seg, pkb⟩ := x
    have hsplit : pieces (pre ++ (seg, pkb) :: post) = pieces pre ++ piece seg :: pieces post := by
      simp [pieces]
    have hs : Whole seg := hwhole (seg, pkb) (by simp)
    obtain ⟨hax, hx, hapart, -, -⟩ := (hsplit ▸ hsh).next
    have hview : ∀ trh ∈ tsk.rcvReass, view trh ∈ l.wait ∧ (view trh).len = size trh := by
      intro trh hm
      rw [← h.wait]
      exact ⟨List.mem_map_of_mem hm, view_len (h.orderly.order.data trh hm)⟩
    have hf : Fresh tsk seg := by
      refine ⟨hs, ?_, fun trh hm => ?_⟩
      · rw [h.nxt]
        exact hsane.nxt_le hax hx hapart
      · obtain ⟨hm', hlen⟩ := hview trh hm
        have := hsane.apart hapart _ hm'
        simp only [Foundation.Resequence.Apart, hlen, piece_len hs] at this
        exact this.symm
    have hin : ∀ trh ∈ tsk.rcvReass, first trh + size trh ≤ top := by
      intro trh hm
      obtain ⟨hm', hlen⟩ := hview trh hm
      obtain ⟨p, hp, -, hle⟩ := hsane.wait _ hm'
      have := (hsh.inside (hsplit ▸ List.mem_append_left _ hp)).2.2
      have hstart : (view trh).start = first trh := rfl
      rw [hlen] at hle
      omega
    have hend : seg.seq.toNat + seg.dlen.toNat ≤ top := by
      have := (hsh.inside (p := piece seg) (by simp [hsplit])).2.2
      rw [piece_len hs] at this
      exact this.trans htop
    obtain ⟨r, hrun, hr⟩ := h.tcpRecvText pkb hf hend hin
    have hnext : pieces (pre ++ [(seg, pkb)]) = pieces pre ++ [piece seg] := by simp [pieces]
    have hsh' : Shuffle a (pieces ((pre ++ [(seg, pkb)]) ++ post)) parts := by simpa using hsh
    obtain ⟨tsk', hall, hshow⟩ :=
      ih hsh' (fun p hp => hwhole p (by simp [hp])) (hnext ▸ hsane.arrive) hr
    exact ⟨tsk', by simp only [AnyOrder.recvAll, hrun, ok_bind, hall], hshow⟩

lemma Divides.pieces {segs : List (TcpSegment × Pkbuf)} (h : Divides n S segs) (hS : S.length < 2 ^ 31)
    (hwrap : n + S.length < 2 ^ 32) :
    (∀ p ∈ segs, Whole p.1) ∧ Contiguous Piece.start Piece.len n (pieces segs) ∧
      total Piece.len (pieces segs) = S.length ∧ (pieces segs).flatMap Piece.data = S := by
  induction segs generalizing n S with
  | nil =>
    obtain rfl : S = [] := h
    exact ⟨by simp, trivial, rfl, rfl⟩
  | cons x segs ih =>
    obtain ⟨seg, pkb⟩ := x
    obtain ⟨rfl, hpos, hle, htext, hrest⟩ := h
    have hlen : (S.drop seg.dlen.toNat).length = S.length - seg.dlen.toNat := List.length_drop
    obtain ⟨hw, hc, ht, hd⟩ := ih hrest (by omega) (by omega)
    have hs : Whole seg := by
      refine ⟨hpos, by omega, by omega, ?_⟩
      have := congrArg List.length htext
      rw [List.length_take, List.length_take] at this
      omega
    have hcons : AnyOrder.pieces ((seg, pkb) :: segs) = piece seg :: AnyOrder.pieces segs := rfl
    rw [hcons, total_cons, ht, piece_len hs, hlen, List.flatMap_cons, hd]
    refine ⟨fun p hp => ?_, ⟨rfl, ?_⟩, by omega, ?_⟩
    · cases hp with
      | head => exact hs
      | tail _ hp => exact hw p hp
    · rwa [piece_len hs]
    · simp only [piece, htext, List.take_append_drop]

lemma exposed_iff {pre post : List (TcpSegment × Pkbuf)} {x : TcpSegment × Pkbuf} :
    Foundation.Resequence.Exposed (pieces pre) (piece x.1) (pieces post) ↔ Exposed pre x post := by
  simp only [Foundation.Resequence.Exposed, Exposed, pieces, List.mem_map, exists_exists_and_eq_and,
    forall_exists_index, and_imp, forall_apply_eq_imp_iff₂, piece, UInt32.lt_iff_toNat_lt]

lemma Roomy.rcvWnd_lt (h : Roomy tsk) : tsk.rcvWnd.toNat < 2 ^ 31 := by
  cases hb : tsk.rcvBuf with
  | none =>
    simp only [Roomy, hb] at h
    omega
  | some c =>
    simp only [Roomy, hb] at h
    obtain ⟨hw, hsize, hfree⟩ := h
    have := hw.tail_le
    simp only [cbufFree, cbufUsed] at hfree
    omega

theorem any_order_iff {segs arrivals : List (TcpSegment × Pkbuf)} (hroomy : Roomy tsk)
    (hempty : tsk.rcvReass = []) (hwnd : S.length ≤ tsk.rcvWnd.toNat) (hwrap : tsk.rcvNxt.toNat + S.length < 2 ^ 32)
    (hdiv : Divides tsk.rcvNxt.toNat S segs) (hperm : arrivals.Perm segs) :
    (∃ tsk', recvAll tsk arrivals = .ok tsk' ∧ held tsk' = held tsk ++ S ∧
      tsk'.rcvNxt.toNat = tsk.rcvNxt.toNat + S.length ∧
      tsk'.rcvWnd.toNat = tsk.rcvWnd.toNat - S.length ∧ tsk'.rcvReass = []) ↔
    ∀ pre x post, arrivals = pre ++ x :: post → Exposed pre x post →
      (tsk.sndWnd + tsk.sndUp).toNat ≤ x.1.seq.toNat := by
  have hlt := Roomy.rcvWnd_lt hroomy
  obtain ⟨hwhole, hc, ht, hd⟩ := hdiv.pieces (by omega) hwrap
  have hsh : Shuffle tsk.rcvNxt.toNat (pieces arrivals) (pieces segs) := by
    refine ⟨hperm.map _, hc, fun p hp => ?_⟩
    obtain ⟨x, hx, rfl⟩ := List.mem_map.mp hp
    rw [piece_len (hwhole x hx)]
    exact (hwhole x hx).pos
  have hstart : Shows (held tsk) (tsk.rcvNxt.toNat + tsk.rcvWnd.toNat) (tsk.sndWnd + tsk.sndUp)
      ⟨tsk.rcvNxt.toNat, [], []⟩ tsk := by
    refine ⟨rfl, by simp, by simp [hempty], rfl, rfl, hroomy, ?_, ?_, ?_⟩
    · rw [hempty]
      exact InOrder.nil _
    · simp [hempty]
    · simp [hempty]
  have hsane : Sane tsk.rcvNxt.toNat (pieces []) (⟨tsk.rcvNxt.toNat, [], []⟩ : Line UInt8) :=
    ⟨fun m h1 h2 => absurd h2 (by simp only; omega), by simp⟩
  have hsh' : Shuffle tsk.rcvNxt.toNat (pieces ([] ++ arrivals)) (pieces segs) := hsh
  obtain ⟨tsk', hrun, hshow⟩ :=
    Shows.recvAll hsh' (fun p hp => hwhole p (hperm.subset hp)) (by omega) hsane hstart
  constructor
  · rintro ⟨tsk'', hrun', -, hnxt, -⟩ pre x post rfl hx
    cases hrun.symm.trans hrun'
    have hsplit : pieces (pre ++ x :: post) = pieces pre ++ piece x.1 :: pieces post := by simp [pieces]
    refine hsh.floor_le ?_ hsplit (exposed_iff.mpr hx)
    rw [← hshow.nxt, hnxt, ht]
  · intro hfloor
    have hfloor' : ∀ pre x post, pieces arrivals = pre ++ x :: post →
        Foundation.Resequence.Exposed pre x post → (tsk.sndWnd + tsk.sndUp).toNat ≤ x.start := by
      intro pre x post hsplit hx
      obtain ⟨pre', rest, rfl, rfl, hrest⟩ := List.map_eq_append_iff.mp hsplit
      obtain ⟨y, post', rfl, rfl, rfl⟩ := List.map_eq_cons_iff.mp hrest
      exact hfloor pre' y post' rfl (exposed_iff.mp hx)
    rw [hsh.foldl_complete hfloor', ht, hd] at hshow
    refine ⟨tsk', hrun, hshow.held, hshow.nxt, ?_, List.map_eq_nil_iff.mp hshow.wait⟩
    have h1 := hshow.nxt
    have h2 := hshow.room
    simp only at h1
    omega

end Run

def offering (wnd : UInt32) : TcpSock := { freshSock with sndWnd := wnd }

def halves : List (TcpSegment × Pkbuf) :=
  [(textSegment 101 [1], allocPkb 0 0), (textSegment 102 [2], allocPkb 1 0)]

lemma divides_halves : Divides 101 [1, 2] halves := by
  refine ⟨rfl, by decide, by decide, rfl, rfl, by decide, by decide, rfl, rfl⟩

theorem any_order_iff_halves : ∃ tsk', recvAll (offering 50) halves.reverse = .ok tsk' ∧
    held tsk' = held (offering 50) ++ [1, 2] ∧
    tsk'.rcvNxt.toNat = (offering 50).rcvNxt.toNat + [1, 2].length ∧
    tsk'.rcvWnd.toNat = (offering 50).rcvWnd.toNat - [1, 2].length ∧ tsk'.rcvReass = [] := by
  have hroomy : Roomy (offering 50) := (by decide : 12 + 8 < 2 ^ 31)
  refine (any_order_iff hroomy rfl (by decide) (by decide) divides_halves
    (List.reverse_perm halves)).mpr fun pre x post h _ => ?_
  have hx : x ∈ halves.reverse := h ▸ by simp
  have hge : ∀ x ∈ halves.reverse, (50 : UInt32).toNat ≤ x.1.seq.toNat := by decide
  exact hge x hx

-- The peer offers 8192 bytes; the first byte comes behind the second and is thrown away.
theorem halves_lost : Roomy (offering 8192) ∧ (offering 8192).rcvReass = [] ∧
    Divides (offering 8192).rcvNxt.toNat [1, 2] halves ∧ [1, 2].length ≤ (offering 8192).rcvWnd.toNat ∧
    ∃ tsk', recvAll (offering 8192) halves.reverse = .ok tsk' ∧ held tsk' = [] ∧ tsk'.rcvNxt = 101 ∧
      tsk'.rcvReass.length = 1 :=
  ⟨(by decide : 12 + 8 < 2 ^ 31), rfl, divides_halves, by decide, _, rfl, by decide, by decide, by decide⟩

end Tapip.Tcp.AnyOrder
