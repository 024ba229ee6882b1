import Tapip.Foundation.Interleave
import Tapip.Foundation.Ring
import Tapip.Net.Pkb

/-! Packets through a circular buffer in shared memory (net/fast_pipe.c, net/shm_eth.c): one writer and
one reader, interleaved at every access to `used`, `write_index`, `read_index` and at every `memcpy`. -/

namespace Tapip.Net.FastPipe

open Foundation.Bytes Foundation.Interleave Foundation.Ring ByteOrder Pkb

variable {m : ℕ} {packets : List (List UInt8)} {c : List UInt8 × UInt32}

structure CircularBuffer where
  capacity : ℕ
  writeIndex : ℕ
  used : ℕ
  readIndex : ℕ
  data : List UInt8
deriving DecidableEq, Repr

def cbInit (data : List UInt8) (capacity : ℕ) : CircularBuffer := ⟨capacity, 0, 0, 0, data⟩

section Code

def add32 (m n : ℕ) : ℕ := (m + n) % 2 ^ 32

def sub32 (m n : ℕ) : ℕ := (m + (2 ^ 32 - n)) % 2 ^ 32

def memcpyTo (index : ℕ) (src : List UInt8) : Access CircularBuffer Unit :=
  .write (fun cb => { cb with data := memcpy cb.data index src })

def memcpyFrom (index len : ℕ) : Access CircularBuffer (List UInt8) :=
  .read (fun cb => slice cb.data index len)

def cbPushData (capacity writeIndex : ℕ) (data : List UInt8) : Access CircularBuffer ℕ :=
  let len := data.length
  if add32 writeIndex len > capacity then do
    let copylen := sub32 capacity writeIndex
    memcpyTo writeIndex (data.take copylen)
    memcpyTo 0 (data.drop copylen)
    return sub32 len copylen
  else do
    memcpyTo writeIndex data
    return add32 writeIndex len

def cbShiftData (capacity readIndex : ℕ) (buf : List UInt8) (buflen : ℕ) :
    Access CircularBuffer (List UInt8 × ℕ) :=
  let tailLength := sub32 capacity readIndex
  if tailLength ≥ buflen then do
    let head ← memcpyFrom readIndex buflen
    return (memcpy buf 0 head, add32 readIndex buflen)
  else do
    let head ← memcpyFrom readIndex tailLength
    let rest ← memcpyFrom 0 (sub32 buflen tailLength)
    return (memcpy (memcpy buf 0 head) tailLength rest, sub32 buflen tailLength)

-- `capacity` is written by `cb_init` alone; the comparison with the length is in 64 bits.
def cbPutPacket (data : List UInt8) : Access CircularBuffer Bool := do
  let (capacity, used) ← .read (fun cb => (cb.capacity, cb.used))
  if sub32 capacity used < 4 + data.length then return false
  else do
    let writeIndex ← .read (·.writeIndex)
    let writeIndex ← cbPushData capacity writeIndex (storeInt (UInt32.ofNat data.length))
    let writeIndex ← cbPushData capacity writeIndex data
    .write (fun cb => { cb with writeIndex := writeIndex })
    .write (fun cb => { cb with used := add32 cb.used (4 + data.length) })
    return true

structure Received where
  ok : Bool
  buf : List UInt8
  pktlen : UInt32
deriving DecidableEq, Repr

def cbGetPacket (buf : List UInt8) (pktlen : UInt32) : Access CircularBuffer Received := do
  let (capacity, used) ← .read (fun cb => (cb.capacity, cb.used))
  if used < 4 then return ⟨false, buf, pktlen⟩
  else do
    let readIndex ← .read (·.readIndex)
    let (len, readIndex) ← cbShiftData capacity readIndex (storeInt pktlen) 4
    let pktlen := loadIntAt len 0
    let used ← .read (·.used)
    if used < pktlen.toNat + 4 ∨ pktlen.toNat > buf.length then return ⟨false, buf, pktlen⟩
    else do
      let (buf, readIndex) ← cbShiftData capacity readIndex buf pktlen.toNat
      .write (fun cb => { cb with used := sub32 cb.used (pktlen.toNat + 4) })
      .write (fun cb => { cb with readIndex := readIndex })
      return ⟨true, buf, pktlen⟩

lemma cbPutPacket_spares (data : List UInt8) : (cbPutPacket data).Spares (· = false) := by
  refine .read_bind fun r => ?_
  simp only
  split_ifs
  · trivial
  · apply Access.Never.spares
    apply Access.Never.bind
    intro writeIndex
    apply Access.Never.bind
    intro writeIndex
    apply Access.Never.bind
    intro writeIndex _ _
    exact Bool.true_eq_false.mp

lemma cbShiftData_bind_spares {β : Type} {p : β → Prop} {capacity readIndex : ℕ} {buf : List UInt8}
    {buflen : ℕ} {f : List UInt8 × ℕ → Access CircularBuffer β} (h : ∀ r, (f r).Spares p) :
    (cbShiftData capacity readIndex buf buflen >>= f).Spares p := by
  simp only [cbShiftData]
  split_ifs
  · exact .inr ⟨rfl, fun _ => h _⟩
  · exact .inr ⟨rfl, fun _ => .inr ⟨rfl, fun _ => h _⟩⟩

lemma cbGetPacket_spares (buf : List UInt8) (pktlen : UInt32) : (cbGetPacket buf pktlen).Spares (·.ok = false) := by
  refine .read_bind fun r => ?_
  simp only
  split_ifs
  · trivial
  · refine .read_bind fun _ => cbShiftData_bind_spares fun r => .read_bind fun used => ?_
    split_ifs
    · trivial
    · apply Access.Never.spares
      apply Access.Never.bind
      intro r _ _
      exact Bool.true_eq_false.mp

lemma add32_eq (h : m + n < 2 ^ 32) : add32 m n = m + n := Nat.mod_eq_of_lt h

lemma sub32_eq (h : n ≤ m) (hm : m < 2 ^ 32) : sub32 m n = m - n := by
  rw [sub32, show m + (2 ^ 32 - n) = (m - n) + 2 ^ 32 by omega, Nat.add_mod_right, Nat.mod_eq_of_lt (by omega)]

end Code

section Stream

def encode (packet : List UInt8) : List UInt8 := storeInt (UInt32.ofNat packet.length) ++ packet

def stream (packets : List (List UInt8)) : List UInt8 := packets.flatMap encode

lemma encode_length (packet : List UInt8) : (encode packet).length = 4 + packet.length := by
  rw [encode, List.length_append]
  rfl

lemma stream_append (ps qs : List (List UInt8)) : stream (ps ++ qs) = stream ps ++ stream qs :=
  List.flatMap_append

lemma stream_singleton (packet : List UInt8) : stream [packet] = encode packet := by
  simp [stream]

def before (packets : List (List UInt8)) (n : ℕ) : ℕ := (stream (packets.take n)).length

lemma before_add_length (packets : List (List UInt8)) (n : ℕ) :
    before packets n + (stream (packets.drop n)).length = (stream packets).length := by
  rw [before, ← List.length_append, ← stream_append, List.take_append_drop]

lemma before_le (packets : List (List UInt8)) (h : m ≤ n) : before packets m ≤ before packets n := by
  have hsplit := before_add_length (packets.take n) m
  rw [before, List.take_take, min_eq_left h] at hsplit
  rw [before, before]
  omega

lemma before_succ
    (h : packets[n]? = some packet) : before packets (n + 1) = before packets n + (4 + packet.length) := by
  rw [before, before, List.take_add_one, h, stream_append, List.length_append, Option.toList_some,
    stream_singleton, encode_length]

lemma before_append (more : List (List UInt8))
    (h : n ≤ packets.length) : before (packets ++ more) n = before packets n := by
  rw [before, before, List.take_append_of_le_length h]

lemma stream_drop (h : packets[n]? = some packet) :
    stream (packets.drop n) = encode packet ++ stream (packets.drop (n + 1)) := by
  obtain ⟨hn, rfl⟩ := List.getElem?_eq_some_iff.mp h
  rw [List.drop_eq_getElem_cons hn, stream, List.flatMap_cons]
  rfl

end Stream

section World

structure Pipe where
  cb : CircularBuffer
  sent : List (List UInt8)
  popped : ℕ
  capacity_lt : cb.capacity < 2 ^ 31
  data_length : cb.data.length = cb.capacity
  popped_le : popped ≤ sent.length
  fits : ∀ packet ∈ sent, 4 + packet.length ≤ cb.capacity
  used_le : cb.used ≤ cb.capacity
  held : window cb.data (before sent popped) cb.used = stream (sent.drop popped)

namespace Pipe

def head (w : Pipe) : ℕ := before w.sent w.popped

def tail (w : Pipe) : ℕ := (stream w.sent).length

lemma head_add_used (w : Pipe) : w.head + w.cb.used = w.tail := by
  have hlen := congrArg List.length w.held
  rw [window_length] at hlen
  rw [head, tail, hlen, before_add_length]

def empty (data : List UInt8) (capacity : ℕ) (hc : capacity < 2 ^ 31) (hd : data.length = capacity) :
    Pipe where
  cb := cbInit data capacity
  sent := []
  popped := 0
  capacity_lt := hc
  data_length := hd
  popped_le := le_rfl
  fits := by simp
  used_le := Nat.zero_le _
  held := rfl

end Pipe

structure ReaderStep (w w' : Pipe) : Prop where
  sent : w'.sent = w.sent
  data : w'.cb.data = w.cb.data
  writeIndex : w'.cb.writeIndex = w.cb.writeIndex
  capacity : w'.cb.capacity = w.cb.capacity
  popped : w.popped ≤ w'.popped

structure WriterStep (w w' : Pipe) : Prop where
  sent : w.sent <+: w'.sent
  readIndex : w'.cb.readIndex = w.cb.readIndex
  capacity : w'.cb.capacity = w.cb.capacity
  popped : w'.popped = w.popped

lemma ReaderStep.refl (w : Pipe) : ReaderStep w w := ⟨rfl, rfl, rfl, rfl, le_rfl⟩

lemma ReaderStep.trans (h : ReaderStep w1 w2) (h' : ReaderStep w2 w3) : ReaderStep w1 w3 :=
  ⟨h'.sent.trans h.sent, h'.data.trans h.data, h'.writeIndex.trans h.writeIndex,
    h'.capacity.trans h.capacity, h.popped.trans h'.popped⟩

lemma WriterStep.refl (w : Pipe) : WriterStep w w := ⟨List.prefix_rfl, rfl, rfl, rfl⟩

lemma WriterStep.trans (h : WriterStep w1 w2) (h' : WriterStep w2 w3) : WriterStep w1 w3 :=
  ⟨h.sent.trans h'.sent, h'.readIndex.trans h.readIndex, h'.capacity.trans h.capacity, h'.popped.trans h.popped⟩

lemma ReaderStep.used_le (h : ReaderStep w w') : w'.cb.used ≤ w.cb.used := by
  have h1 := w.head_add_used
  have h2 := w'.head_add_used
  have h3 := before_le w.sent h.popped
  simp only [Pipe.head, Pipe.tail, h.sent] at h1 h2
  omega

lemma WriterStep.head (h : WriterStep w w') : w'.head = w.head := by
  obtain ⟨more, hmore⟩ := h.sent
  rw [Pipe.head, Pipe.head, h.popped, ← hmore, before_append more w.popped_le]

def writerTerms : Terms CircularBuffer Pipe where
  view := Pipe.cb
  Rely := ReaderStep
  Guar := WriterStep
  rely_refl := ReaderStep.refl
  rely_trans := ReaderStep.trans
  guar_refl := WriterStep.refl

def readerTerms : Terms CircularBuffer Pipe where
  view := Pipe.cb
  Rely := WriterStep
  Guar := ReaderStep
  rely_refl := WriterStep.refl
  rely_trans := WriterStep.trans
  guar_refl := ReaderStep.refl

end World

section Writer

def written (calls : List (List UInt8 × Bool)) : List (List UInt8) :=
  calls.filterMap (fun c => if c.2 then some c.1 else none)

def WriterKeep (calls : List (List UInt8 × Bool)) (w : Pipe) : Prop := w.sent = written calls

structure WriterRest (calls : List (List UInt8 × Bool)) (w : Pipe) : Prop where
  sent : WriterKeep calls w
  index_le : w.cb.writeIndex ≤ w.cb.capacity
  index_mod : w.cb.writeIndex % w.cb.capacity = w.tail % w.cb.capacity

lemma WriterRest.of_rely (hr : ReaderStep w w') (h : WriterRest calls w) : WriterRest calls w' := by
  refine ⟨hr.sent.trans h.sent, ?_, ?_⟩
  · rw [hr.writeIndex, hr.capacity]
    exact h.index_le
  · rw [hr.writeIndex, hr.capacity, Pipe.tail, hr.sent]
    exact h.index_mod

structure Pushed (calls : List (List UInt8 × Bool)) (capacity n : ℕ) (bytes : List UInt8) (index : ℕ)
    (w : Pipe) : Prop where
  sent : WriterKeep calls w
  capacity_eq : w.cb.capacity = capacity
  room : w.cb.used + n ≤ capacity
  wrote : window w.cb.data w.tail bytes.length = bytes
  index_le : index ≤ capacity
  index_mod : index % capacity = (w.tail + bytes.length) % capacity

variable {calls : List (List UInt8 × Bool)} {capacity n index : ℕ} {bytes src : List UInt8} {w w' : Pipe}

lemma Pushed.of_rely (hr : ReaderStep w w') (h : Pushed calls capacity n bytes index w) :
    Pushed calls capacity n bytes index w' := by
  have htail : w'.tail = w.tail := by rw [Pipe.tail, Pipe.tail, hr.sent]
  refine ⟨hr.sent.trans h.sent, hr.capacity.trans h.capacity_eq, ?_, ?_, h.index_le, ?_⟩
  · exact (Nat.add_le_add_right hr.used_le n).trans h.room
  · rw [hr.data, htail]
    exact h.wrote
  · rw [htail]
    exact h.index_mod

lemma Pushed.wrap (h : Pushed calls capacity n bytes capacity w) : Pushed calls capacity n bytes 0 w :=
  ⟨h.sent, h.capacity_eq, h.room, h.wrote, Nat.zero_le _, by
    rw [← h.index_mod, Nat.mod_self, Nat.zero_mod]⟩

lemma Pushed.copy (h : Pushed calls capacity n bytes index w)
    (hlen : bytes.length + src.length ≤ n) (hin : index + src.length ≤ capacity) :
    ∃ w' : Pipe, w'.cb = { w.cb with data := memcpy w.cb.data index src } ∧ WriterStep w w' ∧
      Pushed calls capacity n (bytes ++ src) (index + src.length) w' := by
  have hd := w.data_length
  have hcap := h.capacity_eq
  have hroom := h.room
  have hmemlen : (memcpy w.cb.data index src).length = w.cb.capacity := by
    rw [memcpy_length _ _ _ (by omega), hd]
  have hmod : index % w.cb.data.length = (w.head + (w.cb.used + bytes.length)) % w.cb.data.length := by
    rw [← Nat.add_assoc, w.head_add_used, hd, hcap]
    exact h.index_mod
  have hall := window_memcpy_at src hmod (by omega) (by omega)
  have hbefore : window w.cb.data w.head (w.cb.used + bytes.length) = stream (w.sent.drop w.popped) ++ bytes := by
    rw [window_add, w.head_add_used, h.wrote]
    exact congrArg (· ++ bytes) w.held
  rw [hbefore, Nat.add_assoc, window_add, List.append_assoc] at hall
  have hsplit := List.append_inj hall (by rw [window_length, ← w.held, window_length])
  refine ⟨⟨{ w.cb with data := memcpy w.cb.data index src }, w.sent, w.popped,
    w.capacity_lt, hmemlen, w.popped_le, w.fits, w.used_le, hsplit.1⟩, rfl,
    ⟨List.prefix_rfl, rfl, rfl, rfl⟩, ?_⟩
  refine ⟨h.sent, hcap, hroom, ?_, hin, ?_⟩
  · rw [List.length_append]
    have hwrote := hsplit.2
    rw [w.head_add_used] at hwrote
    exact hwrote
  · rw [List.length_append, ← Nat.add_assoc, Nat.add_mod, h.index_mod, ← Nat.add_mod]
    rfl

lemma memcpyTo_sat (h : Pushed calls capacity n bytes index w)
    (hlen : bytes.length + src.length ≤ n) (hin : index + src.length ≤ capacity) :
    Sat writerTerms (WriterKeep calls)
      (fun _ => Pushed calls capacity n (bytes ++ src) (index + src.length)) (memcpyTo index src) w := by
  apply Sat.write h.sent
  intro w' hr
  exact (h.of_rely hr).copy hlen hin

lemma cbPushData_sat (h : Pushed calls capacity n bytes index w) (hlen : bytes.length + src.length ≤ n) :
    Sat writerTerms (WriterKeep calls)
      (fun index' => Pushed calls capacity n (bytes ++ src) index') (cbPushData capacity index src) w := by
  have hlt := w.capacity_lt
  have hcap := h.capacity_eq
  have hroom := h.room
  have hidx := h.index_le
  simp only [cbPushData]
  rw [add32_eq (by omega)]
  split_ifs with hwrap
  · rw [sub32_eq hidx (by omega)]
    have htake : (src.take (capacity - index)).length = capacity - index := by
      rw [List.length_take]
      omega
    apply Sat.bind
    refine (memcpyTo_sat h (by omega) (by omega)).mono fun _ w1 h1 => ?_
    rw [htake, Nat.add_sub_cancel' hidx] at h1
    apply Sat.bind
    refine (memcpyTo_sat h1.wrap ?_ ?_).mono fun _ w2 h2 => ?_
    · rw [List.length_append, List.length_drop]
      omega
    · rw [List.length_drop]
      omega
    · rw [List.append_assoc, List.take_append_drop, List.length_drop, Nat.zero_add] at h2
      rw [sub32_eq (by omega) (by omega)]
      exact h2
  · apply Sat.bind
    exact (memcpyTo_sat h hlen (by omega)).mono fun _ w1 h1 => h1

lemma WriterRest.pushed (h : WriterRest calls w) (hroom : w.cb.used + n ≤ w.cb.capacity) :
    Pushed calls w.cb.capacity n [] w.cb.writeIndex w :=
  ⟨h.sent, rfl, hroom, rfl, h.index_le, h.index_mod⟩

lemma Pushed.commit (h : Pushed calls capacity (4 + packet.length) (encode packet) index w)
    (hidx : w.cb.writeIndex = index) :
    ∃ w' : Pipe, w'.cb = { w.cb with used := add32 w.cb.used (4 + packet.length) } ∧ WriterStep w w' ∧
      WriterRest (calls ++ [(packet, true)]) w' := by
  have hlt := w.capacity_lt
  have hcap := h.capacity_eq
  have hroom := h.room
  have hused := w.used_le
  have hlen := encode_length packet
  have hadd : add32 w.cb.used (4 + packet.length) = w.cb.used + (4 + packet.length) :=
    add32_eq (by omega)
  have hheld : window w.cb.data (before (w.sent ++ [packet]) w.popped)
      (w.cb.used + (4 + packet.length)) = stream ((w.sent ++ [packet]).drop w.popped) := by
    have hwrote := h.wrote
    rw [hlen, ← w.head_add_used] at hwrote
    rw [before_append _ w.popped_le, window_add, w.held, List.drop_append_of_le_length w.popped_le,
      stream_append, stream_singleton]
    exact congrArg (_ ++ ·) hwrote
  have hfits : ∀ p ∈ w.sent ++ [packet], 4 + p.length ≤ w.cb.capacity := by
    intro p hp
    rcases List.mem_append.mp hp with hp | hp
    · exact w.fits p hp
    · rw [List.mem_singleton.mp hp]
      omega
  rw [hadd]
  refine ⟨⟨{ w.cb with used := w.cb.used + (4 + packet.length) }, w.sent ++ [packet], w.popped,
    w.capacity_lt, w.data_length, w.popped_le.trans (by simp), hfits, by simp only; omega, hheld⟩, rfl,
    ⟨List.prefix_append _ _, rfl, rfl, rfl⟩, ?_, ?_, ?_⟩
  · simp only [WriterKeep, written, List.filterMap_append]
    rw [h.sent]
    rfl
  · simp only [hidx, hcap]
    exact h.index_le
  · simp only [Pipe.tail, hidx, hcap, stream_append, stream_singleton, List.length_append]
    exact h.index_mod

lemma Pushed.store (h : Pushed calls capacity n bytes index w) :
    ∃ w' : Pipe, w'.cb = { w.cb with writeIndex := index } ∧ WriterStep w w' ∧
      Pushed calls capacity n bytes index w' ∧ w'.cb.writeIndex = index :=
  ⟨⟨{ w.cb with writeIndex := index }, w.sent, w.popped, w.capacity_lt, w.data_length, w.popped_le,
    w.fits, w.used_le, w.held⟩, rfl, ⟨List.prefix_rfl, rfl, rfl, rfl⟩,
    ⟨h.sent, h.capacity_eq, h.room, h.wrote, h.index_le, h.index_mod⟩, rfl⟩

lemma cbPutPacket_sat (packet : List UInt8) (h : WriterRest calls w) :
    Sat writerTerms (WriterKeep calls) (fun ok => WriterRest (calls ++ [(packet, ok)])) (cbPutPacket packet) w := by
  apply Sat.bind
  refine Sat.read h.sent fun w1 hr1 => ?_
  have h1 := h.of_rely hr1
  have hlt := w1.capacity_lt
  have hused := w1.used_le
  have hfree : sub32 w1.cb.capacity w1.cb.used = w1.cb.capacity - w1.cb.used := sub32_eq hused (by omega)
  dsimp only
  split_ifs with hfull
  · refine ⟨?_, h1.index_le, h1.index_mod⟩
    rw [WriterKeep, h1.sent]
    simp [written]
  apply Sat.bind
  refine Sat.read h1.sent fun w2 hr2 => ?_
  have h2 := (h1.of_rely hr2).pushed (show w2.cb.used + (4 + packet.length) ≤ w2.cb.capacity by
      have hle := hr2.used_le
      have hcap := hr2.capacity
      rw [show writerTerms.view w1 = w1.cb from rfl, hfree] at hfull
      omega)
  rw [hr2.capacity] at h2
  apply Sat.bind
  refine (cbPushData_sat h2 ?_).mono fun index3 w3 h3 => ?_
  · exact Nat.le_add_right 4 _
  apply Sat.bind
  refine (cbPushData_sat h3 ?_).mono fun index4 w4 h4 => ?_
  · exact le_rfl
  apply Sat.bind
  apply Sat.write h4.sent
  intro w5 hr5
  obtain ⟨w6, hview, hguar, h6, hidx⟩ := (h4.of_rely hr5).store
  refine ⟨w6, hview, hguar, ?_⟩
  apply Sat.bind
  apply Sat.write h6.sent
  intro w7 hr7
  exact (h6.of_rely hr7).commit (hr7.writeIndex.trans hidx)

end Writer

section Reader

def got (calls : List ((List UInt8 × UInt32) × Received)) : List (List UInt8) :=
  calls.filterMap (fun c => if c.2.ok then some (c.2.buf.take c.2.pktlen.toNat) else none)

def ReaderKeep (calls : List ((List UInt8 × UInt32) × Received)) (w : Pipe) : Prop :=
  got calls <+: w.sent

structure ReaderRest (calls : List ((List UInt8 × UInt32) × Received)) (w : Pipe) : Prop where
  keep : ReaderKeep calls w
  popped : w.popped = (got calls).length
  index_le : w.cb.readIndex ≤ w.cb.capacity
  index_mod : w.cb.readIndex % w.cb.capacity = w.head % w.cb.capacity

variable {calls : List ((List UInt8 × UInt32) × Received)} {capacity k n index : ℕ}
  {packet buf : List UInt8} {w w' : Pipe}

lemma ReaderRest.of_rely (hr : WriterStep w w') (h : ReaderRest calls w) : ReaderRest calls w' := by
  refine ⟨List.IsPrefix.trans h.keep hr.sent, hr.popped.trans h.popped, ?_, ?_⟩
  · rw [hr.readIndex, hr.capacity]
    exact h.index_le
  · rw [hr.readIndex, hr.capacity, hr.head]
    exact h.index_mod

structure Shifted (calls : List ((List UInt8 × UInt32) × Received)) (capacity : ℕ) (packet : List UInt8)
    (k index : ℕ) (w : Pipe) : Prop where
  rest : ReaderRest calls w
  next : w.sent[w.popped]? = some packet
  capacity_eq : w.cb.capacity = capacity
  index_le : index ≤ capacity
  index_mod : index % capacity = (w.head + k) % capacity

lemma Shifted.of_rely (hr : WriterStep w w') (h : Shifted calls capacity packet k index w) :
    Shifted calls capacity packet k index w' := by
  refine ⟨h.rest.of_rely hr, ?_, hr.capacity.trans h.capacity_eq, h.index_le, ?_⟩
  · obtain ⟨more, hmore⟩ := hr.sent
    have hlt := (List.getElem?_eq_some_iff.mp h.next).1
    rw [hr.popped, ← hmore, List.getElem?_append_left hlt]
    exact h.next
  · rw [hr.head]
    exact h.index_mod

section Shifted

variable (h : Shifted calls capacity packet k index w)

include h

lemma Shifted.used : 4 + packet.length ≤ w.cb.used := by
  have hlen := congrArg List.length w.held
  rw [window_length, stream_drop h.next, List.length_append, encode_length] at hlen
  omega

lemma Shifted.bytes : window w.cb.data w.head (4 + packet.length) = encode packet := by
  have hheld := congrArg (List.take (4 + packet.length)) w.held
  rw [window_take _ _ h.used, stream_drop h.next, List.take_left' (encode_length packet)] at hheld
  exact hheld

lemma Shifted.slice_eq (hk : k + n ≤ 4 + packet.length)
    (hin : index + n ≤ capacity) : slice w.cb.data index n = slice (encode packet) k n := by
  have hd := w.data_length
  have hcap := h.capacity_eq
  have hmod : index % w.cb.data.length = (w.head + k) % w.cb.data.length := by
    rw [hd, hcap]
    exact h.index_mod
  rw [slice_eq_window hmod (by omega), slice, ← h.bytes, window_drop _ _ (by omega), window_take _ _ (by omega)]

lemma memcpyFrom_sat (hk : k + n ≤ 4 + packet.length) (hin : index + n ≤ capacity) :
    Sat readerTerms (ReaderKeep calls) (fun bytes w' => bytes = slice (encode packet) k n ∧
      Shifted calls capacity packet (k + n) (index + n) w') (memcpyFrom index n) w := by
  apply Sat.read h.rest.keep
  intro w' hr
  have h' := h.of_rely hr
  refine ⟨h'.slice_eq hk hin, h'.rest, h'.next, h'.capacity_eq, hin, ?_⟩
  rw [← Nat.add_assoc, Nat.add_mod, h'.index_mod, ← Nat.add_mod]

end Shifted

lemma Shifted.wrap (h : Shifted calls capacity packet k capacity w) : Shifted calls capacity packet k 0 w :=
  ⟨h.rest, h.next, h.capacity_eq, Nat.zero_le _, by
    rw [← h.index_mod, Nat.mod_self, Nat.zero_mod]⟩

lemma cbShiftData_sat (h : Shifted calls capacity packet k index w) (hk : k + n ≤ 4 + packet.length) :
    Sat readerTerms (ReaderKeep calls) (fun r w' => r.1 = memcpy buf 0 (slice (encode packet) k n) ∧
      Shifted calls capacity packet (k + n) r.2 w') (cbShiftData capacity index buf n) w := by
  have hlt := w.capacity_lt
  have hcap := h.capacity_eq
  have hidx := h.index_le
  have hfits := w.fits packet (List.mem_of_getElem? h.next)
  have htail : sub32 capacity index = capacity - index := sub32_eq hidx (by omega)
  simp only [cbShiftData, htail]
  split_ifs with hin
  · apply Sat.bind
    refine (memcpyFrom_sat h hk (by omega)).mono fun bytes w1 h1 => ?_
    rw [add32_eq (by omega), h1.1]
    exact ⟨rfl, h1.2⟩
  · have hrest : sub32 n (capacity - index) = n - (capacity - index) := sub32_eq (by omega) (by omega)
    rw [hrest]
    apply Sat.bind
    refine (memcpyFrom_sat h (by omega) (by omega)).mono fun bytes w1 h1 => ?_
    obtain ⟨rfl, h1⟩ := h1
    rw [Nat.add_sub_cancel' hidx] at h1
    apply Sat.bind
    refine (memcpyFrom_sat h1.wrap (by omega) (by omega)).mono fun bytes w2 h2 => ?_
    obtain ⟨rfl, h2⟩ := h2
    refine ⟨?_, ?_⟩
    · have hlen : (slice (encode packet) k (capacity - index)).length = capacity - index := by
        rw [slice_length, encode_length]
        omega
      have hjoin := memcpy_memcpy_zero buf (slice (encode packet) k (capacity - index))
        (slice (encode packet) (k + (capacity - index)) (n - (capacity - index)))
      rw [slice_append, Nat.add_sub_cancel' (by omega), hlen] at hjoin
      exact hjoin
    · rw [Nat.zero_add, Nat.add_assoc, Nat.add_sub_cancel' (by omega)] at h2
      exact h2

structure Popped (calls : List ((List UInt8 × UInt32) × Received)) (capacity : ℕ) (packet : List UInt8)
    (index : ℕ) (w : Pipe) : Prop where
  sent : got calls ++ [packet] <+: w.sent
  popped : w.popped = (got calls).length + 1
  capacity_eq : w.cb.capacity = capacity
  index_le : index ≤ capacity
  index_mod : index % capacity = w.head % capacity

lemma Popped.of_rely (hr : WriterStep w w') (h : Popped calls capacity packet index w) :
    Popped calls capacity packet index w' := by
  refine ⟨h.sent.trans hr.sent, hr.popped.trans h.popped, hr.capacity.trans h.capacity_eq, h.index_le, ?_⟩
  rw [hr.head]
  exact h.index_mod

lemma Popped.keep (h : Popped calls capacity packet index w) : ReaderKeep calls w :=
  (List.prefix_append _ _).trans h.sent

lemma Shifted.pop (h : Shifted calls capacity packet (4 + packet.length) index w) :
    ∃ w' : Pipe, w'.cb = { w.cb with used := sub32 w.cb.used (packet.length + 4) } ∧ ReaderStep w w' ∧
      Popped calls capacity packet index w' := by
  have hlt := w.capacity_lt
  have hused := w.used_le
  have hlen := h.used
  have hsub : sub32 w.cb.used (packet.length + 4) = w.cb.used - (4 + packet.length) := by
    rw [Nat.add_comm packet.length 4]
    exact sub32_eq hlen (by omega)
  have hpopped := (List.getElem?_eq_some_iff.mp h.next).1
  have hheld : window w.cb.data (before w.sent (w.popped + 1)) (w.cb.used - (4 + packet.length)) =
      stream (w.sent.drop (w.popped + 1)) := by
    have hdrop := congrArg (List.drop (4 + packet.length)) w.held
    rw [window_drop _ _ hlen, stream_drop h.next, List.drop_left' (encode_length packet)] at hdrop
    rw [before_succ h.next]
    exact hdrop
  have hgot : got calls ++ [packet] <+: w.sent := by
    obtain ⟨more, hmore⟩ := h.rest.keep
    have hnext := h.next
    rw [← hmore, h.rest.popped, List.getElem?_append_right le_rfl, Nat.sub_self] at hnext
    cases more with
    | nil => simp at hnext
    | cons p more =>
      cases hnext
      exact ⟨more, by rw [← hmore, List.append_assoc]; rfl⟩
  rw [hsub]
  refine ⟨⟨{ w.cb with used := w.cb.used - (4 + packet.length) }, w.sent, w.popped + 1, w.capacity_lt,
    w.data_length, hpopped, w.fits, by simp only; omega, hheld⟩, rfl,
    ⟨rfl, rfl, rfl, rfl, Nat.le_succ _⟩, hgot, congrArg (· + 1) h.rest.popped, h.capacity_eq, h.index_le, ?_⟩
  rw [h.index_mod]
  exact congrArg (· % capacity) (before_succ h.next).symm

lemma Popped.store (h : Popped calls capacity packet index w)
    (hok : r.ok = true) (hr : r.buf.take r.pktlen.toNat = packet) :
    ∃ w' : Pipe, w'.cb = { w.cb with readIndex := index } ∧ ReaderStep w w' ∧
      ReaderRest (calls ++ [(c, r)]) w' := by
  have hgot : got (calls ++ [(c, r)]) = got calls ++ [packet] := by
    simp [got, hok, hr]
  refine ⟨⟨{ w.cb with readIndex := index }, w.sent, w.popped, w.capacity_lt, w.data_length, w.popped_le,
    w.fits, w.used_le, w.held⟩, rfl, ⟨rfl, rfl, rfl, rfl, le_rfl⟩, ?_, ?_, ?_, ?_⟩
  · rw [ReaderKeep, hgot]
    exact h.sent
  · rw [hgot, List.length_append]
    exact h.popped
  · exact h.index_le.trans_eq h.capacity_eq.symm
  · simp only [h.capacity_eq]
    exact h.index_mod

lemma ReaderRest.refused (h : ReaderRest calls w) (hok : r.ok = false) : ReaderRest (calls ++ [(c, r)]) w := by
  have hgot : got (calls ++ [(c, r)]) = got calls := by
    simp [got, hok]
  refine ⟨?_, ?_, h.index_le, h.index_mod⟩
  · rw [ReaderKeep, hgot]
    exact h.keep
  · rw [hgot]
    exact h.popped

lemma ReaderRest.shifted (h : ReaderRest calls w) (hused : ¬w.cb.used < 4) :
    ∃ packet, Shifted calls w.cb.capacity packet 0 w.cb.readIndex w := by
  have hlen := congrArg List.length w.held
  rw [window_length] at hlen
  have hlt : w.popped < w.sent.length := by
    by_contra hge
    rw [List.drop_eq_nil_of_le (not_lt.mp hge)] at hlen
    simp only [stream, List.flatMap_nil, List.length_nil] at hlen
    omega
  exact ⟨w.sent[w.popped], h, List.getElem?_eq_getElem hlt, rfl, h.index_le, h.index_mod⟩

lemma loadIntAt_encode (hlt : packet.length < 2 ^ 32) :
    (loadIntAt (memcpy (storeInt pktlen) 0 (slice (encode packet) 0 4)) 0).toNat = packet.length := by
  have hcopy : memcpy (storeInt pktlen) 0 (slice (encode packet) 0 4) = storeInt (UInt32.ofNat packet.length) := rfl
  rw [hcopy, loadIntAt_storeInt, UInt32.toNat_ofNat']
  exact Nat.mod_eq_of_lt hlt

lemma memcpy_encode (buf packet : List UInt8) :
    (memcpy buf 0 (slice (encode packet) 4 packet.length)).take packet.length = packet := by
  have hslice : slice (encode packet) 4 packet.length = packet := by
    have hfour : (storeInt (UInt32.ofNat packet.length)).length = 4 := rfl
    rw [slice, encode, List.drop_left' hfour, List.take_length]
  rw [hslice, memcpy_zero, List.take_left]

lemma cbGetPacket_sat (buf : List UInt8) (pktlen : UInt32) (h : ReaderRest calls w) :
    Sat readerTerms (ReaderKeep calls) (fun r => ReaderRest (calls ++ [((buf, pktlen), r)]))
      (cbGetPacket buf pktlen) w := by
  apply Sat.bind
  refine Sat.read h.keep fun w1 hr1 => ?_
  have h1 := h.of_rely hr1
  dsimp only
  split_ifs with hempty
  · exact h1.refused rfl
  obtain ⟨packet, hs1⟩ := h1.shifted hempty
  apply Sat.bind
  refine Sat.read h1.keep fun w2 hr2 => ?_
  have hs2 := hs1.of_rely hr2
  rw [← hr2.readIndex] at hs2
  apply Sat.bind
  refine (cbShiftData_sat hs2 (by omega)).mono fun r3 w3 h3 => ?_
  obtain ⟨len, index3⟩ := r3
  obtain ⟨rfl, hs3⟩ := h3
  apply Sat.bind
  refine Sat.read hs3.rest.keep fun w4 hr4 => ?_
  have hs4 := hs3.of_rely hr4
  have hused := hs4.used
  have hlen : (loadIntAt (memcpy (storeInt pktlen) 0 (slice (encode packet) 0 4)) 0).toNat = packet.length := by
    have hfits := w4.fits packet (List.mem_of_getElem? hs4.next)
    have hlt := w4.capacity_lt
    exact loadIntAt_encode (by omega)
  split_ifs with hbad
  · exact hs4.rest.refused rfl
  apply Sat.bind
  refine (cbShiftData_sat hs4 (by rw [hlen])).mono fun r5 w5 h5 => ?_
  obtain ⟨buf5, index5⟩ := r5
  obtain ⟨rfl, hs5⟩ := h5
  rw [hlen] at hs5 ⊢
  apply Sat.bind
  apply Sat.write hs5.rest.keep
  intro w6 hr6
  obtain ⟨w7, hview, hguar, h7⟩ := (hs5.of_rely hr6).pop
  refine ⟨w7, hview, hguar, ?_⟩
  apply Sat.bind
  apply Sat.write h7.keep
  intro w8 hr8
  refine (h7.of_rely hr8).store rfl ?_
  simp only
  rw [hlen]
  exact memcpy_encode buf packet

end Reader

section Channel

abbrev Channel := Pair CircularBuffer (List UInt8) Bool (List UInt8 × UInt32) Received

abbrev Turn := Move (List UInt8) (List UInt8 × UInt32)

def getPacket (c : List UInt8 × UInt32) : Access CircularBuffer Received := cbGetPacket c.1 c.2

lemma getPacket_spares (c : List UInt8 × UInt32) : (getPacket c).Spares (·.ok = false) :=
  cbGetPacket_spares c.1 c.2

def Channel.move : Channel → Turn → Channel := Pair.move cbPutPacket getPacket

def Channel.run (channel : Channel) (turns : List Turn) : Channel :=
  Pair.run cbPutPacket getPacket channel turns

lemma writer_contract : Contract writerTerms cbPutPacket WriterKeep WriterRest where
  rest_keep h := h.sent
  keep_rely hr h := hr.sent.trans h
  rest_rely hr h := h.of_rely hr
  call packet h := cbPutPacket_sat packet h

lemma reader_contract : Contract readerTerms getPacket ReaderKeep ReaderRest where
  rest_keep h := h.keep
  keep_rely hr h := List.IsPrefix.trans h hr.sent
  rest_rely hr h := h.of_rely hr
  call c h := cbGetPacket_sat c.1 c.2 h

structure Reliable (channel : Channel) : Prop where
  fifo : got channel.second.results <+: written channel.first.results
  put_refused : ∀ e ∈ channel.first.ended, e.result = false → ∀ a ∈ e.accesses, a.2 = a.1
  get_refused : ∀ e ∈ channel.second.ended, e.result.ok = false → ∀ a ∈ e.accesses, a.2 = a.1
  used_le : channel.memory.used ≤ channel.memory.capacity

lemma Channel.sparing (channel : Channel) (turns : List Turn) (h1 : channel.first.Sparing (· = false))
    (h2 : channel.second.Sparing (·.ok = false)) :
    (channel.run turns).first.Sparing (· = false) ∧ (channel.run turns).second.Sparing (·.ok = false) :=
  Pair.sparing_run cbPutPacket getPacket cbPutPacket_spares getPacket_spares h1 h2 turns

lemma Channel.reliable (hc : capacity < 2 ^ 31) (hd : data.length = capacity) (turns : List Turn) :
    Reliable (Channel.run (.init (cbInit data capacity)) turns) := by
  have hw : WriterRest [] (.empty data capacity hc hd) := ⟨rfl, Nat.zero_le _, rfl⟩
  have hr : ReaderRest [] (.empty data capacity hc hd) := ⟨List.prefix_rfl, rfl, Nat.zero_le _, rfl⟩
  have hinit : Pair.Agree writerTerms readerTerms WriterKeep WriterRest ReaderKeep ReaderRest
      (Pair.init (cbInit data capacity)) (.empty data capacity hc hd) :=
    ⟨rfl, rfl, writer_contract.idle hw, reader_contract.idle hr⟩
  obtain ⟨w, hagree⟩ := Pair.agree_run writer_contract reader_contract rfl (fun h => h) (fun h => h) hinit turns
  have hspares := Channel.sparing (.init (cbInit data capacity)) turns (.idle _) (.idle _)
  change Pair.Agree _ _ _ _ _ _ (Channel.run (.init (cbInit data capacity)) turns) w at hagree
  generalize Channel.run (.init (cbInit data capacity)) turns = channel at hagree hspares ⊢
  refine ⟨?_, hspares.1.ended, hspares.2.ended, ?_⟩
  · have hsent : w.sent = written channel.first.results := hagree.first.1
    have hgot : got channel.second.results <+: w.sent := hagree.second.1
    rw [hsent] at hgot
    exact hgot
  · have hview : w.cb = channel.memory := hagree.view₁
    rw [← hview]
    exact w.used_le

end Channel

section Shmeth

inductive Side
  | a
  | b
deriving DecidableEq, Repr

def Side.other : Side → Side
  | .a => .b
  | .b => .a

inductive Direction
  | atob
  | btoa
deriving DecidableEq, Repr

def writeCb (side : Side) : Direction := if side = .a then .atob else .btoa

def readCb (side : Side) : Direction := if side = .b then .atob else .btoa

def turnCb (side : Side) : Turn → Direction
  | .start₁ _ | .access₁ => writeCb side
  | .start₂ _ | .access₂ => readCb side

structure Shmeth where
  cb : Direction → Channel

def shmethOpen (data : Direction → List UInt8) (capacity : ℕ) : Shmeth :=
  ⟨fun d => .init (cbInit (data d) capacity)⟩

-- One side calls `shmeth_write_packet` or `shmeth_read_packet`, or makes the next access of its call.
def Shmeth.move (shm : Shmeth) (turn : Side × Turn) : Shmeth :=
  ⟨fun d => if turnCb turn.1 turn.2 = d then (shm.cb d).move turn.2 else shm.cb d⟩

def Shmeth.run (shm : Shmeth) (turns : List (Side × Turn)) : Shmeth := turns.foldl Shmeth.move shm

def Shmeth.wrote (shm : Shmeth) (side : Side) : List (List UInt8) :=
  written (shm.cb (writeCb side)).first.results

def Shmeth.received (shm : Shmeth) (side : Side) : List (List UInt8) :=
  got (shm.cb (readCb side)).second.results

lemma Shmeth.run_cb (shm : Shmeth) (turns : List (Side × Turn)) (d : Direction) : (shm.run turns).cb d =
      (shm.cb d).run ((turns.filter (fun t => turnCb t.1 t.2 = d)).map Prod.snd) := by
  induction turns generalizing shm with
  | nil => rfl
  | cons t turns ih =>
    refine (ih (shm.move t)).trans ?_
    by_cases ht : turnCb t.1 t.2 = d
    · rw [List.filter_cons_of_pos (by simpa using ht), Shmeth.move]
      simp only [ht, if_true]
      rfl
    · rw [List.filter_cons_of_neg (by simpa using ht), Shmeth.move]
      simp only [ht, if_false]

theorem shmeth_reliable {capacity : ℕ} (hc : capacity < 2 ^ 31) {data : Direction → List UInt8}
    (hd : ∀ d, (data d).length = capacity) (turns : List (Side × Turn)) :
    (∀ side, ((shmethOpen data capacity).run turns).received side <+:
        ((shmethOpen data capacity).run turns).wrote side.other) ∧
      ∀ d, Reliable (((shmethOpen data capacity).run turns).cb d) := by
  have hall (d : Direction) : Reliable (((shmethOpen data capacity).run turns).cb d) := by
    rw [Shmeth.run_cb]
    exact Channel.reliable hc (hd d) _
  refine ⟨fun side => ?_, hall⟩
  cases side with
  | a => exact (hall .btoa).fifo
  | b => exact (hall .atob).fifo

def crossing : List (Side × Turn) :=
  (.a, .start₁ [7, 8, 9]) :: List.replicate 6 (.a, .access₁) ++
    (.a, .start₁ [5]) :: (.b, .start₂ (List.replicate 4 0, 0)) ::
      (List.replicate 7 [(.b, .access₂), (.a, .access₁)]).flatten ++
    (.a, .start₁ [5]) :: (.b, .start₂ (List.replicate 4 0, 0)) ::
      (List.replicate 8 [(.a, .access₁), (.b, .access₂)]).flatten ++
    (.b, .start₂ (List.replicate 4 0, 0)) :: List.replicate 8 (.b, .access₂)

theorem shmeth_reliable_crossing :
    ((shmethOpen (fun _ => List.replicate 9 0) 9).run crossing).received .b = [[7, 8, 9], [5]] ∧
      ((shmethOpen (fun _ => List.replicate 9 0) 9).run crossing).received .b <+:
        ((shmethOpen (fun _ => List.replicate 9 0) 9).run crossing).wrote .a :=
  ⟨by decide +kernel, (shmeth_reliable (by decide) (fun _ => rfl) crossing).1 .b⟩

end Shmeth

end Tapip.Net.FastPipe
