import Tapip.Ip.Sealed
import Tapip.Sockets.Datagram
import Tapip.Tcp.Segmentation

/-! A TCP segment on the wire: what `tcp_out.c` writes, `ip_in` and `tcp_in` read back. -/

namespace Tapip.Tcp.Wire

open Foundation.Bytes Foundation.Program Net Net.ByteOrder Net.Pkb Lib.Checksum Lib.Sealing
open Ip.Header Ip.Frag Ip.ReassemblySound Ip.Out Ip.In Ip.Quote Ip.Sealed Ip.Upper Sockets.Senders Sockets.Datagram

section Frame

/-- The bytes behind the Ethernet header as a receiver gets them; the device may have padded the frame. -/
structure Frame (p q : Pkbuf) : Prop where
  forUs : q.pkType ≠ .otherhost
  len : p.pkLen ≤ q.pkLen
  data : q.pkData.length = q.pkLen
  bytes : ∀ i, ETH_HRD_SZ ≤ i → i < p.pkLen → q.pkData[i]? = p.pkData[i]?

variable {p q r : Pkbuf} {id : UInt16} {n : ℕ}

lemma slice_frame (hf : Frame p q) (ho : ETH_HRD_SZ ≤ off) (hk : off + k ≤ p.pkLen) :
    slice q.pkData off k = slice p.pkData off k := by
  apply slice_congr
  intro i hi
  exact hf.bytes _ (by omega) (by omega)

def trimmed (n : ℕ) (q : Pkbuf) : Pkbuf :=
  { ipNtoh q with pkLen := ETH_HRD_SZ + n, pkData := (ipNtoh q).pkData.take (ETH_HRD_SZ + n) }

lemma trimmed_getElem? (hq : 22 ≤ q.pkData.length) (hi : i < 16 ∨ 22 ≤ i) (hn : i < ETH_HRD_SZ + n) :
    (trimmed n q).pkData[i]? = q.pkData[i]? := by
  rw [← ipNtoh_getElem? hq hi]
  exact List.getElem?_take_of_lt hn

section Headed

variable (h : Headed id n p) (hl : p.pkLen = ETH_HRD_SZ + n) (hf : Frame p q)

include h hl hf

lemma byte_frame (hi : ETH_HRD_SZ ≤ i) (hi' : i < 34) : q.pkData[i]? = p.pkData[i]? := by
  apply hf.bytes i hi
  rw [hl, ← h.length]
  exact hi'.trans_le h.size

lemma first_frame : q.pkData.getD 14 0 = 0x45 := by
  rw [List.getD_eq_getElem?_getD, byte_frame h hl hf (by simp [ETH_HRD_SZ]) (by omega), h.first]
  rfl

lemma ipLen_frame : ipLen q = htons (UInt16.ofNat n) := by
  rw [← h.len]
  exact loadShortAt_congr (byte_frame h hl hf (by simp [ETH_HRD_SZ]) (by omega))
    (byte_frame h hl hf (by simp [ETH_HRD_SZ]) (by omega))

lemma iphlen_frame : iphlen q = 20 := by
  rw [iphlen, ipHlen, first_frame h hl hf]
  rfl

lemma size_frame : 34 ≤ q.pkData.length := by
  have hge := h.size
  rw [h.length, ← hl] at hge
  rw [hf.data]
  exact hge.trans hf.len

lemma ipCheck_frame (hc : ipChksum (slice p.pkData ETH_HRD_SZ 20) = 0) (hn : n ≤ 0xffff) :
    ipCheck q = some (trimmed n q) := by
  obtain ⟨he, hi⟩ := header_sizes
  have hge := h.ge
  have hlen := hf.len
  have hsize := size_frame h hl hf
  have hver : ipVer q = IP_VERSION_4 := by
    rw [ipVer, first_frame h hl hf]
    rfl
  have hhlen := iphlen_frame h hl hf
  have hck : ipChksum (slice q.pkData ETH_HRD_SZ (iphlen q)) = 0 := by
    rw [hhlen, slice_frame hf le_rfl (by omega), hc]
  have hnat : (ipLen (ipNtoh q)).toNat = n := by
    rw [ipNtoh_ipLen (by omega), ipLen_frame h hl hf, ntohs_htons, UInt16.toNat_ofNat']
    omega
  have hpk : (ipNtoh q).pkLen = q.pkLen := rfl
  rw [ipCheck, if_neg hf.forUs, if_neg (by omega), if_neg (by simp [hver]), if_neg (by omega),
    if_neg (by simp [hck])]
  simp only [hnat, hpk, hhlen]
  rw [if_neg (by simp; omega)]
  rfl

lemma received_frame (hn : n ≤ 0xffff) : Received (ipSrc p) (ipDst p) (slice p.pkData 34 (n - 20)) (trimmed n q) := by
  obtain ⟨he, hi⟩ := header_sizes
  have hge := h.ge
  have hsize := size_frame h hl hf
  have hlen : (slice p.pkData 34 (n - 20)).length = n - 20 := by
    rw [slice_length, h.length]
    omega
  have hbyte : ∀ i, 22 ≤ i → i < ETH_HRD_SZ + n → (trimmed n q).pkData[i]? = p.pkData[i]? := by
    intro i hi hin
    rw [trimmed_getElem? (by omega) (.inr hi) hin]
    exact hf.bytes i (by omega) (hl ▸ hin)
  have hhlen : iphlen (trimmed n q) = 20 := by
    rw [← iphlen_frame h hl hf]
    exact iphlen_congr (trimmed_getElem? (by omega) (by omega) (by omega))
  refine ⟨hhlen, ?_, ?_, ?_, ?_⟩
  · have hload : ipLen (trimmed n q) = ipLen (ipNtoh q) :=
      loadShortAt_congr (List.getElem?_take_of_lt (by omega)) (List.getElem?_take_of_lt (by omega))
    rw [ipdlen, hhlen, hload, ipNtoh_ipLen (by omega), ipLen_frame h hl hf, ntohs_htons, UInt16.toNat_ofNat', hlen]
    omega
  · exact loadIntAt_congr fun j hj => hbyte _ (by omega) (by omega)
  · exact loadIntAt_congr fun j hj => hbyte _ (by omega) (by omega)
  · rw [hlen]
    apply slice_congr
    intro i hi
    exact hbyte _ (by omega) (by omega)

end Headed

end Frame

section Segment

variable {out : OutTcp} {saddr daddr : UInt32} {r : Pkbuf}

lemma tcpBytes_length (out : OutTcp) : (tcpBytes out).length = 20 + out.data.length := by
  simp only [tcpBytes, storeInt, List.length_append, List.length_cons, List.length_nil]

def sealedBytes (saddr daddr : UInt32) (out : OutTcp) : List UInt8 :=
  storeShortAt (tcpBytes out) 16
    (tcpChksum saddr daddr (UInt16.ofNat (20 + out.data.length)) (tcpBytes out))

lemma sealedBytes_length (saddr daddr : UInt32) (out : OutTcp) :
    (sealedBytes saddr daddr out).length = 20 + out.data.length := by
  rw [sealedBytes, storeShortAt_length (by rw [tcpBytes_length]; omega), tcpBytes_length]

lemma sealedBytes_verifies (saddr daddr : UInt32) (out : OutTcp) :
    tcpChksum saddr daddr (UInt16.ofNat (20 + out.data.length)) (sealedBytes saddr daddr out) = 0 := by
  apply checksum_sealed
  · rw [tcpBytes_length]
    omega
  · rfl
  · rfl

lemma sealedBytes_getElem? (hi : i < 16 ∨ 18 ≤ i) : (sealedBytes saddr daddr out)[i]? = (tcpBytes out)[i]? :=
  storeShortAt_getElem? _ _ _ _ (by rw [tcpBytes_length]; omega) hi

structure Recovers (out : OutTcp) (wnd : UInt32) (seg : TcpSegment) : Prop where
  seq : seg.seq = out.seq
  ack : seg.ack = out.ackn
  wnd : seg.wnd = wnd
  fin : seg.fin = out.fin
  syn : seg.syn = out.syn
  rst : seg.rst = out.rst
  psh : seg.psh = out.psh
  ackBit : seg.ackBit = out.ack
  text : seg.text = out.data
  dlen : seg.dlen.toNat = out.data.length
  len : seg.len.toNat = out.data.length + out.syn.toNat + out.fin.toNat
  src : seg.tcphdrSrc = out.src
  dst : seg.tcphdrDst = out.dst

lemma tcpFlags_bits (out : OutTcp) : (tcpFlags out &&& 0x01 != 0) = out.fin ∧ (tcpFlags out &&& 0x02 != 0) = out.syn ∧
    (tcpFlags out &&& 0x04 != 0) = out.rst ∧ (tcpFlags out &&& 0x08 != 0) = out.psh ∧
    (tcpFlags out &&& 0x10 != 0) = out.ack := by
  simp only [tcpFlags]
  generalize out.fin = fin, out.syn = syn, out.rst = rst, out.psh = psh, out.ack = ack
  revert fin syn rst psh ack
  decide

section Received

variable (h : Received saddr daddr (sealedBytes saddr daddr out) r)

include h

lemma ip2tcp_received : ip2tcp r = 34 := by
  rw [ip2tcp, h.hlen]
  rfl

lemma bytes_received : slice r.pkData 34 (20 + out.data.length) = sealedBytes saddr daddr out := by
  rw [← sealedBytes_length saddr daddr out, h.bytes]

lemma getD_received (hi : i < 16) : r.pkData.getD (34 + i) 0 = (tcpBytes out).getD i 0 := by
  have hb := congrArg (·[i]?) (bytes_received h)
  simp only [slice_getElem?, if_pos (show i < 20 + out.data.length by omega), sealedBytes_getElem? (.inl hi)] at hb
  rw [List.getD_eq_getElem?_getD, hb, List.getD_eq_getElem?_getD]

lemma loadShort_received (hi : i + 2 ≤ 16) : loadShortAt r.pkData (34 + i) = loadShortAt (tcpBytes out) i := by
  rw [loadShortAt, Nat.add_assoc, getD_received h (by omega), getD_received h (by omega)]
  rfl

lemma loadInt_received (hi : i + 4 ≤ 16) : loadIntAt r.pkData (34 + i) = loadIntAt (tcpBytes out) i := by
  simp only [loadIntAt, Nat.add_assoc]
  rw [getD_received h (by omega), getD_received h (by omega), getD_received h (by omega),
    getD_received h (by omega)]

lemma tcphlen_received : tcphlen r = 20 := by
  have hb : (tcpBytes out).getD 12 0 = 0x50 := rfl
  rw [tcphlen, ip2tcp_received h, getD_received h (by omega), hb]
  rfl

lemma dlen_received : ipdlen r = ((20 + out.data.length : ℕ) : ℤ) := by
  rw [h.dlen, sealedBytes_length]

lemma tcpAccepts_received : tcpAccepts r = true := by
  have hnat : UInt16.ofInt ((20 + out.data.length : ℕ) : ℤ) = UInt16.ofNat (20 + out.data.length) := by
    rw [← UInt16.toNat_inj]
    simp only [UInt16.ofInt, UInt16.toNat_ofNat']
    omega
  have hv : tcpVerifies r = true := by
    rw [tcpVerifies, dlen_received h, ip2tcp_received h, h.src, h.dst, hnat, Int.toNat_natCast, bytes_received h,
      sealedBytes_verifies]
    rfl
  rw [tcpAccepts, hv, tcphlen_received h, dlen_received h]
  simp [TCP_HRD_SZ]

lemma tcpBit_received (bit : UInt8) : tcpBit r bit = (tcpFlags out &&& bit != 0) := by
  rw [tcpBit, ip2tcp_received h, getD_received h (by omega)]
  rfl

lemma dlen_init_received : (tcpSegmentInit r).dlen.toNat = out.data.length := by
  have hlt := ipdlen_lt r
  have hd := dlen_received h
  simp only [tcpSegmentInit, UInt32.ofInt, UInt32.toNat_ofNat', tcphlen_received h, hd] at hlt ⊢
  omega

lemma text_received (hl : r.pkData.length = 54 + out.data.length) : (tcpSegmentInit r).text = out.data := by
  have hsplit : r.pkData.drop 34 = sealedBytes saddr daddr out := by
    rw [← bytes_received h, slice, List.take_of_length_le]
    rw [List.length_drop]
    omega
  simp only [tcpSegmentInit, ip2tcp_received h, tcphlen_received h]
  rw [← List.drop_drop, hsplit, sealedBytes, storeShortAt_drop _ _ _ _ (by rw [tcpBytes_length]; omega) (by omega)]
  rfl

lemma recovers_received (hl : r.pkData.length = 54 + out.data.length) (hack : out.ack = false → out.ackn = 0) :
    Recovers out out.window.toUInt32 (tcpSegmentInit r) := by
  have hflags := tcpFlags_bits out
  have hip := ip2tcp_received h
  have hdlen := dlen_init_received h
  have hfin : tcpBit r 0x01 = out.fin := (tcpBit_received h _).trans hflags.1
  have hsyn : tcpBit r 0x02 = out.syn := (tcpBit_received h _).trans hflags.2.1
  have hrst : tcpBit r 0x04 = out.rst := (tcpBit_received h _).trans hflags.2.2.1
  have hpsh : tcpBit r 0x08 = out.psh := (tcpBit_received h _).trans hflags.2.2.2.1
  have hbit : tcpBit r 0x10 = out.ack := (tcpBit_received h _).trans hflags.2.2.2.2
  refine ⟨?_, ?_, ?_, hfin, hsyn, hrst, hpsh, hbit, text_received h hl, hdlen, ?_, ?_, ?_⟩
  · have hseq : loadIntAt (tcpBytes out) 4 = htonl out.seq := loadIntAt_storeInt _
    simp only [tcpSegmentInit]
    rw [hip, loadInt_received h (by omega), hseq, ntohl_htonl]
  · have hackn : loadIntAt (tcpBytes out) 8 = htonl out.ackn := loadIntAt_storeInt _
    simp only [tcpSegmentInit]
    rw [hip, loadInt_received h (by omega), hackn, ntohl_htonl, hbit]
    cases hb : out.ack with
    | true => rfl
    | false => rw [hack hb]; rfl
  · have hwnd : loadShortAt (tcpBytes out) 14 = htons out.window := loadShort_bytes _
    simp only [tcpSegmentInit]
    rw [hip, loadShort_received h (by omega), hwnd, ntohs_htons]
  · have hlen : (tcpSegmentInit r).len = (tcpSegmentInit r).dlen + out.syn.toUInt32 + out.fin.toUInt32 := by
      rw [← hsyn, ← hfin]
      rfl
    have hbits : ∀ b : Bool, b.toUInt32.toNat = b.toNat ∧ b.toNat ≤ 1 := by decide
    have hlt := ipdlen_lt r
    rw [dlen_received h] at hlt
    rw [hlen, UInt32.toNat_add, UInt32.toNat_add, hdlen, (hbits _).1, (hbits _).1]
    have hs := (hbits out.syn).2
    have hf := (hbits out.fin).2
    omega
  · have hsrc : loadShortAt (tcpBytes out) 0 = out.src := loadShort_bytes _
    simp only [tcpSegmentInit]
    rw [hip, ← hsrc, ← loadShort_received h (by omega)]
  · have hdst : loadShortAt (tcpBytes out) 2 = out.dst := loadShort_bytes _
    simp only [tcpSegmentInit]
    rw [hip, loadShort_received h (by omega), hdst]

end Received

section Send

variable {p : Pkbuf} {id : ℤ} {rt : RtEntry}

def unsealed (p : Pkbuf) (id : ℤ) (rt : RtEntry) (saddr daddr : UInt32) (out : OutTcp) : Pkbuf :=
  let len := p.pkLen - ETH_HRD_SZ
  let pkb := { p with pkData := memcpy p.pkData (ETH_HRD_SZ + IP_HRD_SZ) (tcpBytes out) }
  let pkb := ipFill pkb 0 (UInt16.ofNat len) (UInt16.ofInt id) TCP_DEFAULT_TTL IP_P_TCP.toUInt8 daddr
  setIpSrc { pkb with pkRtdst := some rt } saddr

lemma unsealed_spec (hl : 54 + out.data.length ≤ p.pkData.length) :
    slice (unsealed p id rt saddr daddr out).pkData 34 (20 + out.data.length) = tcpBytes out ∧
      ipSrc (unsealed p id rt saddr daddr out) = saddr ∧ ipDst (unsealed p id rt saddr daddr out) = daddr ∧
      (unsealed p id rt saddr daddr out).pkData.length = p.pkData.length := by
  simp only [unsealed]
  have hcopy : slice (memcpy p.pkData (ETH_HRD_SZ + IP_HRD_SZ) (tcpBytes out)) 34 (20 + out.data.length) =
      tcpBytes out := by
    rw [← tcpBytes_length]
    exact slice_memcpy_self p.pkData (tcpBytes out) (show 34 ≤ p.pkData.length by omega)
  have hlen : (memcpy p.pkData (ETH_HRD_SZ + IP_HRD_SZ) (tcpBytes out)).length = p.pkData.length := by
    apply memcpy_length
    rw [tcpBytes_length]
    simp only [ETH_HRD_SZ, IP_HRD_SZ]
    omega
  generalize hp0 : ({ p with pkData := memcpy p.pkData (ETH_HRD_SZ + IP_HRD_SZ) (tcpBytes out) } : Pkbuf) = p0
  have hd0 : p0.pkData = memcpy p.pkData (ETH_HRD_SZ + IP_HRD_SZ) (tcpBytes out) := by rw [← hp0]
  rw [← hd0] at hcopy hlen
  have hsize : 34 ≤ p0.pkData.length := by omega
  obtain ⟨ha, hdst, -⟩ := apart_ipFill hsize 0 (UInt16.ofNat (p.pkLen - ETH_HRD_SZ)) (UInt16.ofInt id)
    TCP_DEFAULT_TTL IP_P_TCP.toUInt8 daddr
  generalize ipFill p0 0 (UInt16.ofNat (p.pkLen - ETH_HRD_SZ)) (UInt16.ofInt id) TCP_DEFAULT_TTL
      IP_P_TCP.toUInt8 daddr = q at ha hdst ⊢
  have hq := ha.length
  have hu : Apart 26 30 q (setIpSrc { q with pkRtdst := some rt } saddr) :=
    apart_memcpy (storeInt saddr) (show 26 + 4 ≤ q.pkData.length by omega) rfl
  refine ⟨?_, ?_, ?_, ?_⟩
  · rw [← hcopy]
    apply slice_congr
    intro i _
    rw [hu.bytes _ (by omega), ha.bytes _ (by omega)]
  · exact loadIntAt_memcpy q.pkData saddr (by omega)
  · rw [← hdst]
    exact loadIntAt_congr fun j hj => hu.bytes _ (by omega)
  · rw [hu.length, hq, hlen]

lemma tcpFill_eq (hlen : p.pkLen = 54 + out.data.length) (hl : p.pkData.length = p.pkLen)
    (hn : out.data.length ≤ 65495) :
    tcpFill p id rt saddr daddr out = setShort 50 (unsealed p id rt saddr daddr out)
      (tcpChksum saddr daddr (UInt16.ofNat (20 + out.data.length)) (tcpBytes out)) := by
  have he : ETH_HRD_SZ = 14 := rfl
  have hnat : UInt16.ofInt (((UInt16.ofNat (p.pkLen - ETH_HRD_SZ)).toNat : ℤ) - IP_HRD_SZ) =
      UInt16.ofNat (20 + out.data.length) := by
    rw [← UInt16.toNat_inj]
    simp only [UInt16.ofInt, UInt16.toNat_ofNat', IP_HRD_SZ]
    omega
  have hnat' : (UInt16.ofNat (20 + out.data.length)).toNat = 20 + out.data.length := by
    rw [UInt16.toNat_ofNat']
    omega
  obtain ⟨hbytes, -⟩ := @unsealed_spec out saddr daddr p id rt (by omega)
  have hfill : tcpFill p id rt saddr daddr out = setShort 50 (unsealed p id rt saddr daddr out)
      (tcpChksum saddr daddr (UInt16.ofInt (((UInt16.ofNat (p.pkLen - ETH_HRD_SZ)).toNat : ℤ) - IP_HRD_SZ))
        (slice (unsealed p id rt saddr daddr out).pkData 34
          (UInt16.ofInt (((UInt16.ofNat (p.pkLen - ETH_HRD_SZ)).toNat : ℤ) - IP_HRD_SZ)).toNat)) := by
    simp only [tcpFill, unsealed]
    rfl
  rw [hfill, hnat, hnat', hbytes]

section Packet

variable (addr : ℕ) (id : ℤ) (rt : RtEntry) (saddr daddr : UInt32) (out : OutTcp)

def filled : Pkbuf :=
  { tcpFill (allocPkb addr (54 + out.data.length)) id rt saddr daddr out with pkPro := ETH_P_IP }

def packet : Pkbuf :=
  ipSetChecksum (filled addr id rt saddr daddr out)

lemma length_alloc (addr n : ℕ) : (allocPkb addr n).pkData.length = n := List.length_replicate

lemma packet_pkLen : (packet addr id rt saddr daddr out).pkLen = ETH_HRD_SZ + (40 + out.data.length) := by
  simp only [packet, filled, ipSetChecksum, setIpCksum, setShort, tcpFill, setIpSrc, setInt, ipFill_pkLen, allocPkb,
    ETH_HRD_SZ]
  omega

lemma headed_filled : Headed (UInt16.ofInt id) (40 + out.data.length) (filled addr id rt saddr daddr out) := by
  have hn : (allocPkb addr (54 + out.data.length)).pkLen = ETH_HRD_SZ + (40 + out.data.length) := by
    simp only [allocPkb, ETH_HRD_SZ]
    omega
  have hfit : IP_HRD_SZ + (tcpBytes out).length ≤ 40 + out.data.length := by
    rw [tcpBytes_length]
    simp only [IP_HRD_SZ]
    omega
  exact (headed_tcpFill (length_alloc _ _) hn hfit id rt saddr daddr).congr rfl

lemma headed_packet : Headed (UInt16.ofInt id) (40 + out.data.length) (packet addr id rt saddr daddr out) :=
  (headed_filled addr id rt saddr daddr out).ipSetChecksum

lemma packet_verifies : ipChksum (slice (packet addr id rt saddr daddr out).pkData ETH_HRD_SZ 20) = 0 := by
  have hh := headed_filled addr id rt saddr daddr out
  have hsize := hh.size
  have hhlen : iphlen (filled addr id rt saddr daddr out) = 20 := by
    rw [iphlen, ipHlen, List.getD_eq_getElem?_getD, hh.first]
    rfl
  have hv := @ipSetChecksum_verifies (filled addr id rt saddr daddr out) hhlen.ge (by rw [hhlen]; exact hsize)
  rwa [hhlen] at hv

lemma frame_self : Frame (packet addr id rt saddr daddr out) (packet addr id rt saddr daddr out) := by
  refine ⟨?_, le_rfl, ?_, fun _ _ _ => rfl⟩
  · simp [packet, filled, ipSetChecksum, setIpCksum, setShort, tcpFill, setIpSrc, setInt, ipFill, setIpLen, setIpId,
      setIpFragoff, setIpDst, setByte, allocPkb]
  · rw [(headed_packet addr id rt saddr daddr out).length, packet_pkLen]

end Packet

lemma apart_slice (h : Apart lo hi p q) (ho : off + n ≤ lo ∨ hi ≤ off) :
    slice q.pkData off n = slice p.pkData off n := by
  apply slice_congr
  intro i hi
  exact h.bytes _ (by omega)

lemma apart_addresses (h : Apart lo hi p q) (ho : 34 ≤ lo ∨ hi ≤ 26) : ipSrc q = ipSrc p ∧ ipDst q = ipDst p :=
  ⟨loadIntAt_congr fun j hj => h.bytes _ (by omega), loadIntAt_congr fun j hj => h.bytes _ (by omega)⟩

lemma packet_bytes (hn : out.data.length ≤ 65495) :
    slice (packet addr id rt saddr daddr out).pkData 34 (20 + out.data.length) = sealedBytes saddr daddr out ∧
      ipSrc (packet addr id rt saddr daddr out) = saddr ∧ ipDst (packet addr id rt saddr daddr out) = daddr := by
  have hp := length_alloc addr (54 + out.data.length)
  obtain ⟨hbytes, hsrc, hdst, hlen⟩ := @unsealed_spec out saddr daddr _ id rt hp.ge
  have hfill : (filled addr id rt saddr daddr out).pkData =
      storeShortAt (unsealed (allocPkb addr (54 + out.data.length)) id rt saddr daddr out).pkData 50
        (tcpChksum saddr daddr (UInt16.ofNat (20 + out.data.length)) (tcpBytes out)) := by
    rw [filled, tcpFill_eq rfl hp hn]
    rfl
  have hsize := (headed_filled addr id rt saddr daddr out).size
  rw [packet]
  generalize unsealed (allocPkb addr (54 + out.data.length)) id rt saddr daddr out = u at hbytes hsrc hdst hlen hfill
  generalize filled addr id rt saddr daddr out = g at hfill hsize
  have h1 : Apart 50 52 u g := apart_memcpy [_, _] (show 50 + 2 ≤ u.pkData.length by omega) hfill
  have h2 : Apart 24 26 g (ipSetChecksum g) := apart_ipSetChecksum (by omega)
  refine ⟨?_, ?_, ?_⟩
  · rw [apart_slice h2 (by omega), hfill, sealedBytes, ← hbytes]
    exact slice_storeShortAt (i := 16) (by omega) (by omega) _
  · rw [(apart_addresses h2 (by omega)).1, (apart_addresses h1 (by omega)).1, hsrc]
  · rw [(apart_addresses h2 (by omega)).2, (apart_addresses h1 (by omega)).2, hdst]

/-- The frame passes the tests of `ip_in` and `tcp_in`, and the segment in it is read as it was written. -/
def Decodes (saddr daddr : UInt32) (out : OutTcp) (wnd : UInt32) (q : Pkbuf) : Prop :=
  ∃ r, ipCheck q = some r ∧ tcpAccepts r = true ∧ Recovers out wnd (tcpSegmentInit r) ∧
    (tcpSegmentInit r).iphdrSrc = saddr ∧ (tcpSegmentInit r).iphdrDst = daddr

variable {addr : ℕ}

lemma decodes_of_frame (hack : out.ack = false → out.ackn = 0) (hn : out.data.length ≤ 65495)
    (hf : Frame (packet addr id rt saddr daddr out) q) : Decodes saddr daddr out out.window.toUInt32 q := by
  have hh := headed_packet addr id rt saddr daddr out
  have hl := packet_pkLen addr id rt saddr daddr out
  obtain ⟨hbytes, hsrc, hdst⟩ := @packet_bytes out saddr daddr id rt addr hn
  have hr := received_frame hh hl hf (by omega)
  rw [hsrc, hdst, show 40 + out.data.length - 20 = 20 + out.data.length by omega, hbytes] at hr
  have hsize := size_frame hh hl hf
  have hlen : (trimmed (40 + out.data.length) q).pkData.length = 54 + out.data.length := by
    have hle := hf.len
    rw [hl, ← hf.data] at hle
    simp only [trimmed, ETH_HRD_SZ] at hle ⊢
    rw [List.length_take, ipNtoh_length (by omega)]
    omega
  exact ⟨_, ipCheck_frame hh hl hf (packet_verifies addr id rt saddr daddr out) (by omega),
    tcpAccepts_received hr, recovers_received hr hlen hack, hr.src, hr.dst⟩

lemma Decodes.length {wnd : UInt32} (h : Decodes saddr daddr out wnd (packet addr id rt saddr daddr out)) :
    out.data.length ≤ 65495 := by
  obtain ⟨r, hr, -, hrec, -⟩ := h
  have hh := headed_packet addr id rt saddr daddr out
  have hlen := (ipCheck_accepted hr (frame_self addr id rt saddr daddr out).data.ge).length
  rw [hh.len, ntohs_htons, UInt16.toNat_ofNat'] at hlen
  have htext := congrArg List.length hrec.text
  simp only [tcpSegmentInit, List.length_drop, hlen, ip2tcp] at htext
  omega

lemma decodes_iff (hack : out.ack = false → out.ackn = 0) :
    (∀ q, Frame (packet addr id rt saddr daddr out) q → Decodes saddr daddr out out.window.toUInt32 q) ↔
      out.data.length ≤ 65495 :=
  ⟨fun h => (h _ (frame_self addr id rt saddr daddr out)).length, fun hn _ hf => decodes_of_frame hack hn hf⟩

end Send

end Segment

section Senders

inductive Kind
  | syn
  | fin
  | synack (seg : TcpSegment)
  | ack (seg : TcpSegment)
  | text (buf : List UInt8) (len segsize slen : ℤ)

namespace Kind

def run (netIn : NetIn) (id : ℕ) : Kind → Prog Stack Unit
  | .syn => tcpSendSyn (stackEnv netIn) id
  | .fin => tcpSendFin (stackEnv netIn) id
  | .synack seg => tcpSendSynack (stackEnv netIn) id seg
  | .ack seg => tcpSendAck (stackEnv netIn) id (some seg)
  | .text buf len segsize slen => do
    let _ ← Segmentation.sendTextTurn (stackEnv netIn) id buf len segsize slen

def out (t : TcpSock) : Kind → OutTcp
  | .syn => synOf t
  | .fin => finOf t
  | .synack seg => synackOf t seg
  | .ack seg => ackOf t seg
  | .text buf len segsize slen =>
    textOf t (slice buf slen.toNat (min segsize (len - slen)).toNat)
      (decide (slen + min segsize (len - slen) ≥ len))

def saddr (t : TcpSock) : Kind → UInt32
  | .synack seg | .ack seg => seg.iphdrDst
  | _ => t.sk.skSaddr

def daddr (t : TcpSock) : Kind → UInt32
  | .synack seg | .ack seg => seg.iphdrSrc
  | _ => t.sk.skDaddr

/-- A reset is not answered, and the loop sends text that the buffer has. -/
def Sends : Kind → Prop
  | .syn | .fin => True
  | .synack seg | .ack seg => seg.rst = false
  | .text buf len segsize slen =>
    0 ≤ slen ∧ 0 < segsize ∧ slen < len ∧ len ≤ buf.length

end Kind

variable {netIn : NetIn} {id : ℕ} {s : Stack} {t : TcpSock} {rt : RtEntry} {nd : Netdev}
  {k : Kind}

lemma getSk_ok (h : s.tcp.socks id = some t) : getSk (stackEnv netIn) id s = .ok (t, s) := by
  simp [getSk, stackEnv, h]

lemma modifySk_ok (f : TcpSock → TcpSock) (h : s.tcp.socks id = some t) :
    modifySk (stackEnv netIn) id f s = .ok ((), Custody.put s id (some (f t))) := by
  rw [modifySk, bind_run (getSk_ok h)]
  rfl

lemma tcpRoute_ok (h : s.tcp.socks id = some t) (hrt : t.sk.skDst.or (rtLookup s.rtHead daddr) = some rt) :
    ∃ s1, tcpRoute (stackEnv netIn) (some id) daddr s = .ok (some rt, s1) ∧ s1.netDevices = s.netDevices ∧
      s1.tcp.tcpId = s.tcp.tcpId := by
  simp only [tcpRoute]
  rw [bind_run (getSk_ok h), bind_run (pure_run _)]
  cases hd : t.sk.skDst with
  | some rt' =>
    rw [hd] at hrt
    cases hrt
    exact ⟨s, rfl, rfl, rfl⟩
  | none =>
    rw [hd, Option.none_or] at hrt
    dsimp only
    rw [bind_run (show (stackEnv netIn).rtLookup daddr s = .ok (some rt, s) by rw [← hrt]; rfl)]
    dsimp only
    rw [bind_run (modifySk_ok _ h)]
    exact ⟨_, rfl, rfl, rfl⟩

lemma ipSendOut_routed (hrt : p.pkRtdst = some rt) (hd : s.netDevices[rt.rtDev]? = some nd)
    (hlen : ((ntohs (ipLen (ipSetChecksum { p with pkPro := ETH_P_IP }))).toNat : ℤ) ≤ nd.netMtu) :
    ipSendOut netIn p s = ipSendDev netIn rt.rtDev (ipSetChecksum { p with pkPro := ETH_P_IP }) s := by
  have hdev : Stack.getDev rt.rtDev s = .ok (nd, s) := by simp [Stack.getDev, hd]
  cases p with
  | mk pkAddr pkPro pkType pkLen pkIndev pkRtdst pkData =>
    obtain rfl : pkRtdst = some rt := hrt
    simp only [ipSendOut, Option.isSome_some, if_true, pure_bind]
    rw [bind_run (show rtdst (ipSetChecksum _) s = .ok (rt, s) from rfl), ipSendRoute, bind_run hdev,
      if_neg (by simpa using hlen)]

lemma tcpFill_pkRtdst (p : Pkbuf) (tcpId : ℤ) (saddr daddr : UInt32) (o : OutTcp) :
    (tcpFill p tcpId rt saddr daddr o).pkRtdst = some rt := by
  simp only [tcpFill, setShort, setIpSrc, setInt]

lemma tcpSendOut_packet {addr : ℕ} {o : OutTcp} {seg : Option TcpSegment} {saddr daddr : UInt32}
    (h : s.tcp.socks id = some t)
    (haddr : (seg.elim t.sk.skSaddr (·.iphdrDst), seg.elim t.sk.skDaddr (·.iphdrSrc)) = (saddr, daddr))
    (hrt : t.sk.skDst.or (rtLookup s.rtHead daddr) = some rt) (hd : s.netDevices[rt.rtDev]? = some nd)
    (hfit : ((40 + o.data.length : ℕ) : ℤ) ≤ nd.netMtu) :
    ∃ s1, tcpSendOut (stackEnv netIn) (some id) (allocPkb addr (54 + o.data.length)) o seg s =
      ipSendDev netIn rt.rtDev (packet addr s.tcp.tcpId rt saddr daddr o) s1 := by
  obtain ⟨s1, hroute, hdevs, hid⟩ := @tcpRoute_ok netIn _ _ _ _ _ h hrt
  refine ⟨s1, ?_⟩
  have hsend : ipSendOut netIn (tcpFill (allocPkb addr (54 + o.data.length)) s.tcp.tcpId rt saddr daddr o) s1 =
      ipSendDev netIn rt.rtDev (packet addr s.tcp.tcpId rt saddr daddr o) s1 := by
    apply ipSendOut_routed (tcpFill_pkRtdst _ _ _ _ _) (hdevs ▸ hd)
    have hlen := (headed_packet addr s.tcp.tcpId rt saddr daddr o).len
    simp only [packet, filled] at hlen
    rw [hlen, ntohs_htons, UInt16.toNat_ofNat']
    omega
  obtain ⟨rfl, rfl⟩ := Prod.mk.inj haddr
  cases seg with
  | some g =>
    simp only [tcpSendOut, pure_bind, Option.elim_some] at hroute ⊢
    rw [bind_run hroute]
    simp only [stackEnv, hid]
    exact hsend
  | none =>
    simp only [tcpSendOut, Option.elim_none] at hroute ⊢
    rw [bind_run (getSk_ok h), bind_run (pure_run _), bind_run hroute]
    simp only [stackEnv, hid]
    exact hsend

lemma allocPkb_cases (size : ℤ) (s : Stack) : Stack.allocPkb size s = .error .exit ∨
    Stack.allocPkb size s = .ok (allocPkb s.pkbs.next size.toNat, { s with pkbs := s.pkbs.alloc }) := by
  by_cases hmax : s.pkbs.alloc.allocs - s.pkbs.alloc.frees > Stack.MAX_PKBS
  · left
    rw [Stack.allocPkb, bind_run_error (show Stack.countPkb s = .error .exit from if_pos hmax)]
  · right
    rw [Stack.allocPkb, bind_run (show Stack.countPkb s = .ok (s.pkbs.next, { s with pkbs := s.pkbs.alloc }) from
      if_neg hmax)]
    rfl

def Emits (netIn : NetIn) (x : Prog Stack Unit) (s : Stack) (dev : ℕ) (p : Pkbuf) : Prop :=
  x s = .error .exit ∨ ∃ s1, x s = ipSendDev netIn dev p s1

lemma emits_bare {f : TcpSock → OutTcp} {seg : Option TcpSegment} {saddr daddr : UInt32}
    (hbare : (f t).data = []) (h : s.tcp.socks id = some t)
    (haddr : (seg.elim t.sk.skSaddr (·.iphdrDst), seg.elim t.sk.skDaddr (·.iphdrSrc)) = (saddr, daddr))
    (hrt : t.sk.skDst.or (rtLookup s.rtHead daddr) = some rt) (hd : s.netDevices[rt.rtDev]? = some nd)
    (hfit : ((40 + (f t).data.length : ℕ) : ℤ) ≤ nd.netMtu) :
    Emits netIn (do
      let opkb ← Stack.allocPkb (ETH_HRD_SZ + IP_TCP_HRD_SZ)
      let tsk ← getSk (stackEnv netIn) id
      tcpSendOut (stackEnv netIn) (some id) opkb (f tsk) seg) s rt.rtDev
      (packet s.pkbs.next s.tcp.tcpId rt saddr daddr (f t)) := by
  rcases allocPkb_cases (ETH_HRD_SZ + IP_TCP_HRD_SZ) s with halloc | halloc
  · exact .inl (bind_run_error halloc)
  · have hsize : ((ETH_HRD_SZ : ℤ) + IP_TCP_HRD_SZ).toNat = 54 + (f t).data.length := by
      rw [hbare]
      rfl
    rw [hsize] at halloc
    have h' : ({ s with pkbs := s.pkbs.alloc } : Stack).tcp.socks id = some t := h
    obtain ⟨s1, hsend⟩ := @tcpSendOut_packet netIn _ _ _ _ _ s.pkbs.next (f t) seg _ _ h' haddr hrt hd hfit
    refine .inr ⟨s1, ?_⟩
    rw [bind_run halloc, bind_run (getSk_ok h')]
    exact hsend

lemma emits_text {buf : List UInt8} {len segsize slen : ℤ} (hk : Kind.Sends (.text buf len segsize slen))
    (h : s.tcp.socks id = some t) (hrt : t.sk.skDst.or (rtLookup s.rtHead t.sk.skDaddr) = some rt)
    (hd : s.netDevices[rt.rtDev]? = some nd)
    (hfit : ((40 + (Kind.out t (.text buf len segsize slen)).data.length : ℕ) : ℤ) ≤ nd.netMtu) :
    Emits netIn (Kind.run netIn id (.text buf len segsize slen)) s rt.rtDev
      (packet s.pkbs.next s.tcp.tcpId rt t.sk.skSaddr t.sk.skDaddr (Kind.out t (.text buf len segsize slen))) := by
  obtain ⟨hslen, hseg, hlt, hlen⟩ := hk
  have hdata : (Kind.out t (.text buf len segsize slen)).data.length = (min segsize (len - slen)).toNat := by
    simp only [Kind.out, textOf, slice_length]
    omega
  have hrun : Kind.run netIn id (.text buf len segsize slen) = (do
      let pkb ← Stack.allocPkb (ETH_HRD_SZ + IP_TCP_HRD_SZ + min segsize (len - slen))
      let tsk ← getSk (stackEnv netIn) id
      modifySk (stackEnv netIn) id (takeCredit (min segsize (len - slen)))
      tcpSendOut (stackEnv netIn) (some id) pkb (Kind.out tsk (.text buf len segsize slen)) none) := by
    simp only [Kind.run, Segmentation.sendTextTurn, bind_assoc, pure_bind, bind_pure_unit]
    rfl
  rw [hrun]
  rcases allocPkb_cases (ETH_HRD_SZ + IP_TCP_HRD_SZ + min segsize (len - slen)) s with halloc | halloc
  · exact .inl (bind_run_error halloc)
  · have hsize : ((ETH_HRD_SZ : ℤ) + IP_TCP_HRD_SZ + min segsize (len - slen)).toNat =
        54 + (Kind.out t (.text buf len segsize slen)).data.length := by
      simp only [hdata, ETH_HRD_SZ, IP_TCP_HRD_SZ]
      omega
    rw [hsize] at halloc
    have h1 : ({ s with pkbs := s.pkbs.alloc } : Stack).tcp.socks id = some t := h
    have h2 : (Custody.put { s with pkbs := s.pkbs.alloc } id
        (some (takeCredit (min segsize (len - slen)) t))).tcp.socks id =
          some (takeCredit (min segsize (len - slen)) t) := by
      simp [Custody.put]
    obtain ⟨s1, hsend⟩ := @tcpSendOut_packet netIn _ _ _ _ _ s.pkbs.next
      (Kind.out t (.text buf len segsize slen)) none _ _ h2 rfl hrt hd hfit
    refine .inr ⟨s1, ?_⟩
    rw [bind_run halloc, bind_run (getSk_ok h1), bind_run (modifySk_ok _ h1)]
    exact hsend

lemma emits (hk : k.Sends) (h : s.tcp.socks id = some t)
    (hrt : t.sk.skDst.or (rtLookup s.rtHead (k.daddr t)) = some rt) (hd : s.netDevices[rt.rtDev]? = some nd)
    (hfit : ((40 + (k.out t).data.length : ℕ) : ℤ) ≤ nd.netMtu) :
    Emits netIn (k.run netIn id) s rt.rtDev
      (packet s.pkbs.next s.tcp.tcpId rt (k.saddr t) (k.daddr t) (k.out t)) := by
  cases k with
  | syn => exact emits_bare (f := synOf) rfl h rfl hrt hd hfit
  | fin => exact emits_bare (f := finOf) rfl h rfl hrt hd hfit
  | synack seg =>
    have hrun : Kind.run netIn id (.synack seg) = _ := if_neg (Bool.eq_false_iff.mp hk)
    rw [hrun]
    exact emits_bare (f := (synackOf · seg)) rfl h rfl hrt hd hfit
  | ack seg =>
    have hrun : Kind.run netIn id (.ack seg) = _ := if_neg (Bool.eq_false_iff.mp hk)
    rw [hrun]
    exact emits_bare (f := (ackOf · seg)) rfl h rfl hrt hd hfit
  | text buf len segsize slen => exact emits_text hk h hrt hd hfit

lemma out_window (k : Kind) (t : TcpSock) : (k.out t).window = t.rcvWnd.toUInt16 := by
  cases k <;> rfl

lemma out_ackn (k : Kind) (t : TcpSock) (h : (k.out t).ack = false) : (k.out t).ackn = 0 := by
  cases k with
  | syn => rfl
  | fin | synack | ack | text => cases h

theorem wire_iff (hk : k.Sends) (h : s.tcp.socks id = some t) (hwnd : t.rcvWnd.toNat < 65536)
    (hrt : t.sk.skDst.or (rtLookup s.rtHead (k.daddr t)) = some rt) (hd : s.netDevices[rt.rtDev]? = some nd)
    (hfit : ((40 + (k.out t).data.length : ℕ) : ℤ) ≤ nd.netMtu) :
    Emits netIn (k.run netIn id) s rt.rtDev (packet s.pkbs.next s.tcp.tcpId rt (k.saddr t) (k.daddr t) (k.out t)) ∧
    ((∀ q, Frame (packet s.pkbs.next s.tcp.tcpId rt (k.saddr t) (k.daddr t) (k.out t)) q →
        Decodes (k.saddr t) (k.daddr t) (k.out t) t.rcvWnd q) ↔ 40 + (k.out t).data.length ≤ 65535) := by
  have hwindow : (k.out t).window.toUInt32 = t.rcvWnd := by
    rw [out_window, ← UInt32.toNat_inj, UInt16.toNat_toUInt32, UInt32.toNat_toUInt16]
    omega
  refine ⟨emits hk h hrt hd hfit, ?_⟩
  rw [← hwindow, decodes_iff (out_ackn k t)]
  omega

def talker : TcpSock :=
  { Session.boundSock with
    state := .established
    sndWnd := 65535
    sk := { Session.boundSock.sk with
      skDaddr := 0x0200000a
      skDport := 0x5000
      skDst := some ⟨0, 0, 0, 0, 0, 1⟩ } }

def talking (mtu : ℤ) : Stack :=
  { Ip.FragTable.idle [] with
    netDevices := [⟨1500, 0x0100007f, 0x000000ff, [0, 0, 0, 0, 0, 0]⟩,
      ⟨mtu, 0x0100000a, 0x00ffffff, [2, 0, 0, 0, 0, 1]⟩]
    tcp := { (Ip.FragTable.idle []).tcp with socks := fun i => if i = 0 then some talker else none } }

def speech (n : ℕ) : Kind := .text (List.replicate n 0) n n 0

lemma speech_data (n : ℕ) (t : TcpSock) : ((speech n).out t).data.length = n := by
  simp [speech, Kind.out, textOf, slice_length]

lemma speech_sends (h : 0 < n) : (speech n).Sends := by
  simp [speech, Kind.Sends, h]

def spoken (mtu : ℤ) (n : ℕ) : Pkbuf :=
  packet (talking mtu).pkbs.next (talking mtu).tcp.tcpId ⟨0, 0, 0, 0, 0, 1⟩ 0x0100000a 0x0200000a
    ((speech n).out talker)

lemma spoken_emits {mtu : ℤ} {n : ℕ} (hpos : 0 < n) (hfit : 40 + (n : ℤ) ≤ mtu) :
    Emits dropAll ((speech n).run dropAll 0) (talking mtu) 1 (spoken mtu n) := by
  apply @emits dropAll 0 (talking mtu) talker ⟨0, 0, 0, 0, 0, 1⟩ _ (speech n) (speech_sends hpos) rfl rfl rfl
  rw [speech_data]
  exact_mod_cast hfit

lemma spoken_length {mtu : ℤ} {n : ℕ} {wnd : UInt32}
    (h : ∀ q, Frame (spoken mtu n) q → Decodes 0x0100000a 0x0200000a ((speech n).out talker) wnd q) :
    n ≤ 65495 := by
  have hle := (h _ (frame_self _ _ _ _ _ _)).length
  rwa [speech_data] at hle

theorem wire_three : Emits dropAll ((speech 3).run dropAll 0) (talking 1500) 1 (spoken 1500 3) ∧
    ∀ q, Frame (spoken 1500 3) q → Decodes 0x0100000a 0x0200000a ((speech 3).out talker) 4096 q := by
  have hw := @wire_iff dropAll 0 (talking 1500) talker ⟨0, 0, 0, 0, 0, 1⟩ _ (speech 3) (speech_sends (by omega)) rfl
    (by decide) rfl rfl (by rw [speech_data]; decide)
  exact ⟨hw.1, hw.2.mpr (by rw [speech_data]; decide)⟩

/-- On a device with an MTU of 65536, as the loopback device of the host has it. -/
theorem wire_wraps : Emits dropAll ((speech 65496).run dropAll 0) (talking 65536) 1 (spoken 65536 65496) ∧
    ((40 + ((speech 65496).out talker).data.length : ℕ) : ℤ) ≤ 65536 ∧ talker.rcvWnd.toNat < 65536 ∧
    ¬ ∀ q, Frame (spoken 65536 65496) q →
      Decodes 0x0100000a 0x0200000a ((speech 65496).out talker) talker.rcvWnd q := by
  refine ⟨spoken_emits (by omega) (by omega), by rw [speech_data]; decide, by decide, ?_⟩
  intro hall
  have hle := spoken_length hall
  omega

end Senders

end Tapip.Tcp.Wire
