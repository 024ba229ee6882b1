import Mathlib.Data.List.TakeWhile
import Tapip.Tcp.Sock

/-! Segment text on the receiving side (tcp/tcp_text.c, tcp/tcp_reass.c). -/

namespace Tapip.Tcp.Text

open Net.Pkb Lib Foundation.Program

variable {nseq : UInt32} {seg seg' : TcpSegment} {tsk tsk' : TcpSock} {pkb : Pkbuf}

-- `none` is the jump to `out`.
def adjacentSegmentHead (nseq : UInt32) (seg : TcpSegment) : Option TcpSegment :=
  if nseq > seg.seq then
    if seg.dlen ≤ nseq - seg.seq then none
    else some { seg with
      dlen := seg.dlen - (nseq - seg.seq)
      text := seg.text.drop (nseq - seg.seq).toNat
      seq := nseq }
  else some seg

def rcvCbuf (tsk : TcpSock) : Except Fault Cbuf :=
  match tsk.rcvBuf with
  | none => allocCbuf (toInt tsk.rcvWnd)
  | some cbuf => .ok cbuf

def tcpWriteBuf (tsk : TcpSock) (data : List UInt8) (len : UInt32) : Except Fault (ℤ × TcpSock) := do
  let cbuf ← rcvCbuf tsk
  let (rlen, cbuf) ← writeCbuf cbuf data (toInt len)
  let tsk := { tsk with rcvBuf := some cbuf }
  if rlen > 0 then
    return (rlen, { tsk with
      rcvWnd := tsk.rcvWnd - UInt32.ofNat rlen.toNat
      rcvNxt := tsk.rcvNxt + UInt32.ofNat rlen.toNat })
  else return (rlen, tsk)

-- In front of the first entry stands the list head inside the sock: what is read as its `seq` and
-- `len` are `sndWnd` and `sndUp`.
def prevEnd (tsk : TcpSock) (before : List TcpReassHead) : UInt32 :=
  match before.getLast? with
  | some prev => prev.seq + prev.len
  | none => tsk.sndWnd + tsk.sndUp

structure Trimmed where
  freed : List Pkbuf
  rest : List TcpReassHead
  seg : TcpSegment
  out : Bool

def trimTail (seg : TcpSegment) : List TcpReassHead → Except Fault Trimmed
  | [] => .ok ⟨[], [], seg, false⟩
  | trh :: rest =>
    if seg.seq + seg.dlen < trh.seq + trh.len then
      if seg.seq + seg.dlen > trh.seq then
        let seg := { seg with dlen := trh.seq - seg.seq }
        if seg.dlen = 0 then .ok ⟨[], trh :: rest, seg, true⟩
        else if seg.dlen > 0 then .ok ⟨[], trh :: rest, seg, false⟩
        else .error .assertion
      else .ok ⟨[], trh :: rest, seg, false⟩
    else do
      let t ← trimTail seg rest
      return { t with freed := trh.pkb :: t.freed }

def writeReass : List TcpReassHead → TcpSock → ℤ →
    Except Fault (List Pkbuf × List TcpReassHead × TcpSock × ℤ)
  | [], tsk, len => .ok ([], [], tsk, len)
  | trh :: rest, tsk, len =>
    if trh.seq > tsk.rcvNxt then .ok ([], trh :: rest, tsk, len)
    else if trh.seq = tsk.rcvNxt then do
      let (rlen, tsk) ← tcpWriteBuf tsk trh.data trh.len
      if rlen ≤ 0 then return ([], trh :: rest, tsk, len)
      else
        let (freed, rest, tsk, len) ← writeReass rest tsk (len + rlen)
        return (trh.pkb :: freed, rest, tsk, len)
    else .error .assertion

-- The entry lies over the Ethernet header and the first eighteen bytes of the IP header.
def overlay (seg : TcpSegment) : TcpSegment :=
  { seg with
    iphdrSrc := (seg.seq >>> 16) ||| (seg.dlen <<< 16)
    iphdrDst := (seg.iphdrDst &&& (0xffff0000 : UInt32)) ||| (seg.dlen >>> 16) }

structure Received where
  tsk : TcpSock
  seg : TcpSegment
  queued : Bool
  freed : List Pkbuf

def insertSegment (tsk : TcpSock) (before : List TcpReassHead) (t : Trimmed) (pkb : Pkbuf) :
    Except Fault Received := do
  let ctrh : TcpReassHead := ⟨pkb, t.seg.text, t.seg.seq, t.seg.dlen⟩
  let (freed, rest, tsk, len) ← writeReass (before ++ ctrh :: t.rest) tsk 0
  return ⟨{ tsk with rcvReass := rest, push := tsk.push || (decide (len > 0) && t.seg.psh) },
    overlay t.seg, true, t.freed ++ freed⟩

def tcpSegmentReass (tsk : TcpSock) (seg : TcpSegment) (pkb : Pkbuf) : Except Fault Received :=
  let before := tsk.rcvReass.takeWhile (fun trh => decide (trh.seq ≤ seg.seq))
  let after := tsk.rcvReass.dropWhile (fun trh => decide (trh.seq ≤ seg.seq))
  match if after.isEmpty then some seg else adjacentSegmentHead (prevEnd tsk before) seg with
  | none => .ok ⟨tsk, seg, false, []⟩
  | some seg => do
    let t ← trimTail seg after
    if t.out then return ⟨{ tsk with rcvReass := before ++ t.rest }, t.seg, false, t.freed⟩
    else insertSegment tsk before t pkb

def tcpRecvText (tsk : TcpSock) (seg : TcpSegment) (pkb : Pkbuf) : Except Fault Received :=
  if tsk.rcvWnd = 0 then .ok ⟨tsk, seg, false, []⟩
  else match adjacentSegmentHead tsk.rcvNxt seg with
    | none => .ok ⟨tsk, seg, false, []⟩
    | some seg =>
      if tsk.rcvNxt = seg.seq && tsk.rcvReass.isEmpty then do
        let (rlen, tsk) ← tcpWriteBuf tsk seg.text seg.dlen
        return ⟨{ tsk with push := tsk.push || (decide (rlen > 0) && seg.psh), ackDelay := true },
          seg, false, []⟩
      else do
        let r ← tcpSegmentReass tsk seg pkb
        return { r with tsk := { r.tsk with ackNow := true } }

def tcpReadBuf (tsk : TcpSock) (len : ℤ) : Except Fault (List UInt8 × TcpSock) := do
  let (buf, curlen, rcvBuf) ← readCbuf tsk.rcvBuf len
  return (buf, { tsk with rcvBuf := rcvBuf, rcvWnd := tsk.rcvWnd + UInt32.ofInt curlen })

def tcpEndPush (tsk : TcpSock) : TcpSock :=
  if tsk.push && tsk.rcvBuf.all (fun c => cbufUsed c = 0) then { tsk with push := false } else tsk

lemma adjacentSegmentHead_spec (h : adjacentSegmentHead nseq seg = some seg') :
    ∃ d : ℕ, seg'.seq.toNat = seg.seq.toNat + d ∧ seg'.dlen.toNat + d = seg.dlen.toNat ∧
      seg'.text = seg.text.drop d ∧ nseq.toNat ≤ seg'.seq.toNat ∧
      (d = 0 ∨ seg'.seq = nseq ∧ 0 < seg'.dlen.toNat) ∧
      seg' = { seg with seq := seg'.seq, dlen := seg'.dlen, text := seg'.text } := by
  simp only [adjacentSegmentHead] at h
  split at h
  · rename_i hlt
    split at h
    · simp at h
    · rename_i hd
      cases h
      have h1 : seg.seq.toNat < nseq.toNat := hlt
      have h2 : (nseq - seg.seq).toNat = nseq.toNat - seg.seq.toNat :=
        UInt32.toNat_sub_of_le _ _ (UInt32.le_of_lt hlt)
      have h3 : (nseq - seg.seq).toNat < seg.dlen.toNat := UInt32.not_le.mp hd
      have h4 : (seg.dlen - (nseq - seg.seq)).toNat = seg.dlen.toNat - (nseq - seg.seq).toNat :=
        UInt32.toNat_sub_of_le _ _ (UInt32.le_of_lt (UInt32.not_le.mp hd))
      refine ⟨(nseq - seg.seq).toNat, ?_, ?_, rfl, le_rfl, .inr ⟨rfl, ?_⟩, rfl⟩
      · simp only
        omega
      · simp only
        omega
      · simp only
        omega
  · rename_i hlt
    cases h
    exact ⟨0, rfl, rfl, rfl, UInt32.not_lt.mp hlt, .inl rfl, rfl⟩

lemma trimTail_spec (seg : TcpSegment) (rest : List TcpReassHead) :
    ∃ t gone, trimTail seg rest = .ok t ∧ rest = gone ++ t.rest ∧
      (∀ trh ∈ gone, trh.seq + trh.len ≤ seg.seq + seg.dlen) ∧
      t.freed = gone.map TcpReassHead.pkb ∧
      t.seg = { seg with dlen := t.seg.dlen } ∧
      (t.seg = seg ∧ t.out = false ∧ (∀ trh ∈ t.rest.head?, seg.seq + seg.dlen ≤ trh.seq) ∨
        ∃ trh ∈ t.rest.head?, trh.seq < seg.seq + seg.dlen ∧
          seg.seq + seg.dlen < trh.seq + trh.len ∧ t.seg.dlen = trh.seq - seg.seq ∧
          t.out = decide (t.seg.dlen = 0)) := by
  induction rest with
  | nil => exact ⟨_, [], rfl, rfl, by simp, rfl, rfl, .inl ⟨rfl, rfl, by simp⟩⟩
  | cons trh rest ih =>
    simp only [trimTail]
    split_ifs with h1 h2 h3 h4
    · exact ⟨_, [], rfl, rfl, by simp, rfl, rfl, .inr ⟨trh, rfl, h2, h1, rfl, by simp [h3]⟩⟩
    · exact ⟨_, [], rfl, rfl, by simp, rfl, rfl, .inr ⟨trh, rfl, h2, h1, rfl, by simp [h3]⟩⟩
    · exact absurd (UInt32.pos_iff_ne_zero.mpr h3) h4
    · refine ⟨_, [], rfl, rfl, by simp, rfl, rfl, .inl ⟨rfl, rfl, ?_⟩⟩
      intro trh' hm
      cases hm
      exact UInt32.not_lt.mp h2
    · obtain ⟨t, gone, ht, rfl, hg, hf, hs, hcut⟩ := ih
      refine ⟨{ t with freed := trh.pkb :: t.freed }, trh :: gone, by rw [ht]; rfl, rfl, ?_,
        by simp [hf], hs, hcut⟩
      intro trh' hm
      rcases List.mem_cons.mp hm with rfl | hm
      · exact UInt32.not_lt.mp h1
      · exact hg trh' hm

structure Placed (tsk : TcpSock) (seg : TcpSegment) (before after : List TcpReassHead)
    (seg' : TcpSegment) : Prop where
  split : tsk.rcvReass = before ++ after
  before_le : ∀ trh ∈ before, trh.seq ≤ seg.seq
  lt_after : ∀ trh ∈ after.head?, seg.seq < trh.seq
  head : (if after.isEmpty then some seg else adjacentSegmentHead (prevEnd tsk before) seg) = some seg'

lemma Placed.trimmed {before after : List TcpReassHead} (h : Placed tsk seg before after seg') :
    ∃ d : ℕ, seg'.seq.toNat = seg.seq.toNat + d ∧ seg'.dlen.toNat + d = seg.dlen.toNat ∧
      seg'.text = seg.text.drop d := by
  have hh := h.head
  split_ifs at hh
  · cases hh
    exact ⟨0, rfl, rfl, rfl⟩
  · obtain ⟨d, h1, h2, h3, -⟩ := adjacentSegmentHead_spec hh
    exact ⟨d, h1, h2, h3⟩

lemma placed (hh : (if (tsk.rcvReass.dropWhile fun trh => decide (trh.seq ≤ seg.seq)).isEmpty then some seg
      else adjacentSegmentHead (prevEnd tsk (tsk.rcvReass.takeWhile fun trh => decide (trh.seq ≤ seg.seq))) seg) =
        some seg') :
    Placed tsk seg (tsk.rcvReass.takeWhile fun trh => decide (trh.seq ≤ seg.seq))
      (tsk.rcvReass.dropWhile fun trh => decide (trh.seq ≤ seg.seq)) seg' := by
  refine ⟨(List.takeWhile_append_dropWhile).symm, ?_, ?_, hh⟩
  · intro trh hm
    simpa using List.mem_takeWhile_imp hm
  · intro trh hm
    have := List.head?_dropWhile_not (fun trh : TcpReassHead => decide (trh.seq ≤ seg.seq)) tsk.rcvReass
    rw [Option.mem_def.mp hm] at this
    simpa [UInt32.not_le] using this

lemma tcpSegmentReass_cases (tsk : TcpSock) (seg : TcpSegment) (pkb : Pkbuf) :
    tcpSegmentReass tsk seg pkb = .ok ⟨tsk, seg, false, []⟩ ∨
      ∃ before after seg' t, Placed tsk seg before after seg' ∧ trimTail seg' after = .ok t ∧
        tcpSegmentReass tsk seg pkb =
          if t.out then .ok ⟨{ tsk with rcvReass := before ++ t.rest }, t.seg, false, t.freed⟩
          else insertSegment tsk before t pkb := by
  simp only [tcpSegmentReass]
  split
  · exact .inl rfl
  · rename_i seg' hh
    obtain ⟨t, -, ht, -⟩ := trimTail_spec seg' (tsk.rcvReass.dropWhile (fun trh => decide (trh.seq ≤ seg.seq)))
    refine .inr ⟨_, _, seg', t, placed hh, ht, ?_⟩
    rw [ht]
    rfl

def Writes (tsk tsk' : TcpSock) : Prop :=
  ∃ rcvBuf rcvWnd rcvNxt, tsk' = { tsk with rcvBuf := rcvBuf, rcvWnd := rcvWnd, rcvNxt := rcvNxt }

lemma Writes.refl (tsk : TcpSock) : Writes tsk tsk := ⟨_, _, _, rfl⟩

lemma Writes.trans {a b c : TcpSock} (h : Writes a b) (h' : Writes b c) : Writes a c := by
  obtain ⟨_, _, _, rfl⟩ := h
  obtain ⟨_, _, _, rfl⟩ := h'
  exact ⟨_, _, _, rfl⟩

lemma tcpWriteBuf_writes {data : List UInt8} {len : UInt32} {rlen : ℤ}
    (h : tcpWriteBuf tsk data len = .ok (rlen, tsk')) : Writes tsk tsk' := by
  obtain ⟨c, -, h⟩ := bind_eq_ok.mp h
  obtain ⟨⟨n, c'⟩, -, h⟩ := bind_eq_ok.mp h
  simp only [pure_eq_ok] at h
  split_ifs at h
  · cases h
    exact ⟨_, _, _, rfl⟩
  · cases h
    exact ⟨_, _, _, rfl⟩

/-- A run of `writeReass` that returns. -/
inductive Drains : List TcpReassHead → TcpSock → ℤ → List Pkbuf → List TcpReassHead → TcpSock → ℤ → Prop
  | rests {queue : List TcpReassHead} {tsk : TcpSock} {len : ℤ} : Drains queue tsk len [] queue tsk len
  | full {trh : TcpReassHead} {queue : List TcpReassHead} {tsk t : TcpSock} {len rlen : ℤ} :
      trh.seq = tsk.rcvNxt → tcpWriteBuf tsk trh.data trh.len = .ok (rlen, t) →
      Drains (trh :: queue) tsk len [] (trh :: queue) t len
  | next {trh : TcpReassHead} {queue rest : List TcpReassHead} {freed : List Pkbuf} {tsk t tsk' : TcpSock}
      {len rlen len' : ℤ} : trh.seq = tsk.rcvNxt → tcpWriteBuf tsk trh.data trh.len = .ok (rlen, t) → 0 < rlen →
      Drains queue t (len + rlen) freed rest tsk' len' → Drains (trh :: queue) tsk len (trh.pkb :: freed) rest tsk' len'

section Drains

variable {queue rest : List TcpReassHead} {freed : List Pkbuf} {len len' : ℤ}

lemma writeReass_drains (h : writeReass queue tsk len = .ok (freed, rest, tsk', len')) :
    Drains queue tsk len freed rest tsk' len' := by
  induction queue generalizing tsk freed len with
  | nil =>
    cases h
    exact .rests
  | cons trh queue ih =>
    simp only [writeReass] at h
    split_ifs at h with hgt heq
    · cases h
      exact .rests
    · obtain ⟨⟨rlen, t⟩, hw, h⟩ := bind_eq_ok.mp h
      simp only at h
      split_ifs at h with hle
      · cases h
        exact .full heq hw
      · obtain ⟨⟨freed, rest, tsk, len⟩, hrun, h⟩ := bind_eq_ok.mp h
        cases h
        exact .next heq hw (not_le.mp hle) (ih hrun)

lemma Drains.writes (h : Drains queue tsk len freed rest tsk' len') : Writes tsk tsk' := by
  induction h with
  | rests => exact .refl _
  | full _ hw => exact tcpWriteBuf_writes hw
  | next _ hw _ _ ih => exact (tcpWriteBuf_writes hw).trans ih

end Drains

def Receives (tsk tsk' : TcpSock) : Prop :=
  ∃ rcvBuf rcvWnd rcvNxt rcvReass push ackNow ackDelay, tsk' = { tsk with
    rcvBuf := rcvBuf, rcvWnd := rcvWnd, rcvNxt := rcvNxt, rcvReass := rcvReass
    push := push, ackNow := ackNow, ackDelay := ackDelay }

lemma tcpSegmentReass_receives {r : Received} (h : tcpSegmentReass tsk seg pkb = .ok r) : Receives tsk r.tsk := by
  rcases tcpSegmentReass_cases tsk seg pkb with he | ⟨before, after, seg', t, -, -, he⟩
  · cases h.symm.trans he
    exact ⟨_, _, _, _, _, _, _, rfl⟩
  rw [he] at h
  split_ifs at h
  · cases h
    exact ⟨_, _, _, _, _, _, _, rfl⟩
  · obtain ⟨⟨freed, rest, tsk', len⟩, hrun, h⟩ := bind_eq_ok.mp h
    cases h
    obtain ⟨_, _, _, rfl⟩ := (writeReass_drains hrun).writes
    exact ⟨_, _, _, _, _, _, _, rfl⟩

lemma tcpRecvText_receives {r : Received} (h : tcpRecvText tsk seg pkb = .ok r) : Receives tsk r.tsk := by
  simp only [tcpRecvText] at h
  split at h
  · cases h
    exact ⟨_, _, _, _, _, _, _, rfl⟩
  split at h
  · cases h
    exact ⟨_, _, _, _, _, _, _, rfl⟩
  split at h
  · obtain ⟨⟨rlen, tsk'⟩, hw, h⟩ := bind_eq_ok.mp h
    cases h
    obtain ⟨_, _, _, rfl⟩ := tcpWriteBuf_writes hw
    exact ⟨_, _, _, _, _, _, _, rfl⟩
  · obtain ⟨r', hr, h⟩ := bind_eq_ok.mp h
    cases h
    obtain ⟨buf, wnd, nxt, reass, push, _, delay, he⟩ := tcpSegmentReass_receives hr
    exact ⟨buf, wnd, nxt, reass, push, true, delay, by rw [he]⟩

structure CutOf (seg seg' : TcpSegment) : Prop where
  rst : seg'.rst = seg.rst
  fin : seg'.fin = seg.fin
  seq : seg.seq.toNat ≤ seg'.seq.toNat ∧ seg'.seq.toNat ≤ seg.seq.toNat + seg.dlen.toNat

lemma CutOf.refl (seg : TcpSegment) : CutOf seg seg := ⟨rfl, rfl, le_rfl, Nat.le_add_right _ _⟩

lemma adjacentSegmentHead_cutOf (h : adjacentSegmentHead nseq seg = some seg') : CutOf seg seg' := by
  obtain ⟨d, h1, h2, -, -, -, he⟩ := adjacentSegmentHead_spec h
  exact ⟨by rw [he], by rw [he], by omega, by omega⟩

lemma tcpSegmentReass_cutOf {r : Received} (h : tcpSegmentReass tsk seg pkb = .ok r) : CutOf seg r.seg := by
  rcases tcpSegmentReass_cases tsk seg pkb with he | ⟨before, after, seg', t, hp, ht, he⟩
  · cases h.symm.trans he
    exact .refl seg
  have hseg' : CutOf seg seg' := by
    have hh := hp.head
    split_ifs at hh
    · cases hh
      exact .refl seg
    · exact adjacentSegmentHead_cutOf hh
  obtain ⟨t', -, ht', -, -, -, hseg, -⟩ := trimTail_spec seg' after
  cases ht.symm.trans ht'
  have hcut : CutOf seg t.seg := by
    rw [hseg]
    exact ⟨hseg'.rst, hseg'.fin, hseg'.seq⟩
  rw [he] at h
  split_ifs at h
  · cases h
    exact hcut
  · obtain ⟨⟨freed, rest, tsk', len⟩, -, h⟩ := bind_eq_ok.mp h
    cases h
    exact ⟨hcut.rst, hcut.fin, hcut.seq⟩

lemma tcpRecvText_cutOf {r : Received} (h : tcpRecvText tsk seg pkb = .ok r) : CutOf seg r.seg := by
  simp only [tcpRecvText] at h
  split at h
  · cases h
    exact .refl seg
  split at h
  · cases h
    exact .refl seg
  rename_i seg' hadj
  split at h
  · obtain ⟨⟨rlen, tsk'⟩, -, h⟩ := bind_eq_ok.mp h
    cases h
    exact adjacentSegmentHead_cutOf hadj
  · obtain ⟨r', hr, h⟩ := bind_eq_ok.mp h
    cases h
    obtain ⟨d, h1, h2, -⟩ := adjacentSegmentHead_spec hadj
    have hfront := adjacentSegmentHead_cutOf hadj
    have hback := tcpSegmentReass_cutOf hr
    have hle : r'.seg.seq.toNat ≤ seg.seq.toNat + seg.dlen.toNat := by
      have := hback.seq.2
      omega
    exact ⟨hback.rst.trans hfront.rst, hback.fin.trans hfront.fin, hfront.seq.1.trans hback.seq.1, hle⟩

end Tapip.Tcp.Text
