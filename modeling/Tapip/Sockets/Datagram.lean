import Tapip.Ip.Upper
import Tapip.Lib.Sealing
import Tapip.Sockets.Senders

/-! What the datagrams of `udp_send_buf` and `raw_send_buf` say of themselves: the total length in the
IP header and the UDP checksum (udp/udp_sock.c, socket/raw_sock.c, lib/checksum.c). -/

namespace Tapip.Sockets.Datagram

open Foundation.Bytes Foundation.Program Net Net.ByteOrder Net.Pkb Ip.Header Ip.Out Ip.In Lib.Checksum
open Lib.Sealing Senders Ip.Upper
open Tcp (Sock ipdlen)

section Length

variable {id : UInt16} {n : ℕ} {d : Pkbuf}

lemma ipLen_of_made (h : Made id n (some d)) : (ntohs (ipLen d)).toNat = n % 65536 ∧ d.pkLen - ETH_HRD_SZ = n := by
  obtain ⟨hd, hlen, -⟩ := h d rfl
  rw [hd.len, ntohs_htons, hlen, Nat.add_sub_cancel_left, UInt16.toNat_ofNat']
  exact ⟨rfl, rfl⟩

lemma ipLen_iff_of_made (h : Made id n (some d)) : (ntohs (ipLen d)).toNat = d.pkLen - ETH_HRD_SZ ↔ n ≤ 0xffff := by
  rw [(ipLen_of_made h).1, (ipLen_of_made h).2]
  omega

theorem ip_len_iff (sk : Sock) (buf : List UInt8) (s s' : Sender) (d : Pkbuf) :
    (∀ autobind junk skaddr, udpPacket sk autobind junk buf skaddr s = .ok (some d, s') →
      ((ntohs (ipLen d)).toNat = d.pkLen - ETH_HRD_SZ ↔ buf.length ≤ 65507)) ∧
    ∀ skaddr, rawPacket sk buf skaddr s = .ok (some d, s') →
      ((ntohs (ipLen d)).toNat = d.pkLen - ETH_HRD_SZ ↔ buf.length ≤ 65515) := by
  constructor
  · intro autobind junk skaddr h
    rw [ipLen_iff_of_made (udpPacket_inv h).2]
    omega
  · intro skaddr h
    rw [ipLen_iff_of_made (rawPacket_inv h).2]
    omega

def host : Sender where
  stack := { Ip.FragTable.idle [] with
    netDevices := [⟨1500, 0x0100000a, 0x00ffffff, [2, 0, 0, 0, 0, 1]⟩]
    rtHead := [⟨0, 0, 0x0200000a, 0x02, 0, 0⟩] }
  udpId := 0
  rawId := 0

def sockOf (protocol : UInt8) : Sock := ⟨protocol, 0x0100000a, 0, 0x0700, 0, none, [], true, true, 1⟩

def peer : SockAddr := ⟨0x0200000a, 0x0700⟩

lemma rawPacket_some (buf : List UInt8) (h : buf.length ≤ RAW_MAX_BUFSZ) :
    ∃ d s', rawPacket (sockOf 1) buf peer host = .ok (some d, s') := by
  rw [rawPacket, if_neg (not_lt.mpr h)]
  exact ⟨_, _, rfl⟩

lemma rtOutput_host (p : Pkbuf) {s : Stack} (hr : s.rtHead = host.stack.rtHead)
    (hd : s.netDevices = host.stack.netDevices) : ∃ q, rtOutput p s = .ok (some q, s) := by
  have hrt : rtLookup s.rtHead (ipDst p) = some ⟨0, 0, 0x0200000a, 0x02, 0, 0⟩ := by simp [hr, host, rtLookup]
  have hnd : s.netDevices[0]? = some ⟨1500, 0x0100000a, 0x00ffffff, [2, 0, 0, 0, 0, 1]⟩ := by rw [hd]; rfl
  simp only [rtOutput, hrt, hnd]
  exact ⟨_, rfl⟩

lemma udpPacket_some (buf : List UInt8) (hpos : 0 < buf.length) (h : buf.length ≤ UDP_MAX_BUFSZ) :
    ∃ d s', udpPacket (sockOf 17) none peer buf (some peer) host = .ok (some d, s') := by
  have hsize : (decide (buf.length = 0) || decide (buf.length > UDP_MAX_BUFSZ)) = false := by
    rw [Bool.or_eq_false_iff, decide_eq_false_iff_not, decide_eq_false_iff_not]
    omega
  have hinit : ∀ p s, s.stack.rtHead = host.stack.rtHead → s.stack.netDevices = host.stack.netDevices →
      ∃ q s', udpInitPkb (sockOf 17) p buf peer s = .ok (some q, s') := by
    intro p s hr hd
    obtain ⟨q, hq⟩ := rtOutput_host (ipFill p 0 (UInt16.ofNat (p.pkLen - ETH_HRD_SZ)) s.udpId UDP_DEFAULT_TTL
      (sockOf 17).protocol peer.dstAddr) hr hd
    have hon : onStack (rtOutput (ipFill p 0 (UInt16.ofNat (p.pkLen - ETH_HRD_SZ)) s.udpId UDP_DEFAULT_TTL
        (sockOf 17).protocol peer.dstAddr)) s = .ok (some q, s) := by
      rw [onStack, hq]
      rfl
    have hget : (get : Prog Sender Sender) s = .ok (s, s) := rfl
    rw [udpInitPkb, bind_run hget, bind_run hon]
    exact ⟨_, _, rfl⟩
  have haddr : ¬ (decide ((udpAddr (sockOf 17) peer (some peer)).dstAddr = 0) ||
      decide ((udpAddr (sockOf 17) peer (some peer)).dstPort = 0)) = true := by decide
  have hport : (if (sockOf 17).skSport ≠ 0 then some (sockOf 17).skSport else none) = some 0x0700 := rfl
  have halloc : ∃ p s, onStack (Stack.allocPkb (ETH_HRD_SZ + IP_HRD_SZ + 8 + buf.length)) host = .ok (p, s) ∧
      s.stack.rtHead = host.stack.rtHead ∧ s.stack.netDevices = host.stack.netDevices := ⟨_, _, rfl, rfl, rfl⟩
  obtain ⟨p, s, hp, hr, hd⟩ := halloc
  obtain ⟨q, s', hq⟩ := hinit p s hr hd
  have hq' : udpInitPkb { sockOf 17 with skSport := 0x0700 } p buf (udpAddr (sockOf 17) peer (some peer)) s =
    .ok (some q, s') := hq
  simp only [udpPacket, hsize, Bool.false_eq_true, if_false, if_neg haddr, hport]
  rw [bind_run hp, bind_run hq']
  exact ⟨_, _, rfl⟩

theorem ip_len_three : (∃ d s', udpPacket (sockOf 17) none peer [1, 2, 3] (some peer) host = .ok (some d, s') ∧
      (ntohs (ipLen d)).toNat = d.pkLen - ETH_HRD_SZ) ∧
    ∃ d s', rawPacket (sockOf 1) [1, 2, 3] peer host = .ok (some d, s') ∧
      (ntohs (ipLen d)).toNat = d.pkLen - ETH_HRD_SZ := by
  obtain ⟨d, s', h⟩ := udpPacket_some [1, 2, 3] (by decide) (by decide)
  obtain ⟨d1, s1, h1⟩ := rawPacket_some [1, 2, 3] (by decide)
  exact ⟨⟨d, s', h, ((ip_len_iff _ _ _ _ _).1 _ _ _ h).mpr (by decide)⟩,
    ⟨d1, s1, h1, ((ip_len_iff _ _ _ _ _).2 _ h1).mpr (by decide)⟩⟩

theorem ip_len_wraps :
    (∃ d s', udpPacket (sockOf 17) none peer (List.replicate 65508 0) (some peer) host = .ok (some d, s') ∧
      (ntohs (ipLen d)).toNat = 0 ∧ d.pkLen - ETH_HRD_SZ = 65536) ∧
    ∃ d s', rawPacket (sockOf 1) (List.replicate 65516 0) peer host = .ok (some d, s') ∧
      (ntohs (ipLen d)).toNat = 0 ∧ d.pkLen - ETH_HRD_SZ = 65536 := by
  constructor
  · obtain ⟨d, s', h⟩ := udpPacket_some (List.replicate 65508 0) (by rw [List.length_replicate]; decide)
      (by rw [List.length_replicate]; decide)
    have hlen := ipLen_of_made (udpPacket_inv h).2
    rw [List.length_replicate] at hlen
    exact ⟨d, s', h, hlen⟩
  · obtain ⟨d, s', h⟩ := rawPacket_some (List.replicate 65516 0) (by rw [List.length_replicate]; decide)
    have hlen := ipLen_of_made (rawPacket_inv h).2
    rw [List.length_replicate] at hlen
    exact ⟨d, s', h, hlen⟩

end Length

section Seal

variable {p : Pkbuf} {sport dport : UInt16} {buf : List UInt8} {id : UInt16}

def udpBytes (sport dport : UInt16) (buf : List UInt8) : List UInt8 :=
  let length := htons (UInt16.ofNat (buf.length + 8))
  [sport.toUInt8, (sport >>> 8).toUInt8] ++ [dport.toUInt8, (dport >>> 8).toUInt8] ++
    [length.toUInt8, (length >>> 8).toUInt8] ++ [0, 0] ++ buf

def udpFilled (p : Pkbuf) (sport dport : UInt16) (buf : List UInt8) : Pkbuf :=
  let p := setShort 36 (setShort 34 p sport) dport
  let p := setShort 38 p (htons (UInt16.ofNat (buf.length + 8)))
  { p with pkData := memcpy p.pkData 42 buf }

def udpUnsealed (p : Pkbuf) (sport dport : UInt16) (buf : List UInt8) : Pkbuf :=
  setShort 40 (udpFilled p sport dport buf) 0

lemma apart_udpUnsealed (sport dport : UInt16) (h : 42 + buf.length ≤ p.pkData.length) :
    Apart 34 (42 + buf.length) p (udpUnsealed p sport dport buf) := by
  have h1 := ((Apart.refl 34 (42 + buf.length) p).setShort h 34 le_rfl (by omega) sport).setShort h 36 (by omega)
    (by omega) dport
  have h2 := h1.setShort h 38 (by omega) (by omega) (htons (UInt16.ofNat (buf.length + 8)))
  have h3 : Apart 34 (42 + buf.length) p (udpFilled p sport dport buf) :=
    h2.memcpy h 42 (by omega) buf le_rfl (by simp only [udpFilled])
  exact h3.setShort h 40 (by omega) (by omega) 0

lemma udpUnsealed_slice (sport dport : UInt16) (h : 42 + buf.length ≤ p.pkData.length) :
    slice (udpUnsealed p sport dport buf).pkData 34 (8 + buf.length) = udpBytes sport dport buf := by
  have hcut : ∀ d : List UInt8, slice d 34 (8 + buf.length) =
      slice d 34 2 ++ slice d 36 2 ++ slice d 38 2 ++ slice d 40 2 ++ slice d 42 buf.length := by
    intro d
    rw [slice_append, slice_append, slice_append, slice_append]
  simp only [udpUnsealed, udpFilled, setShort, storeShortAt, udpBytes]
  generalize hd1 : memcpy p.pkData 34 _ = d1
  have hl1 : d1.length = p.pkData.length := by rw [← hd1, memcpy_length _ _ _ (by simp; omega)]
  generalize hd2 : memcpy d1 36 _ = d2
  have hl2 : d2.length = p.pkData.length := by rw [← hd2, memcpy_length _ _ _ (by simp; omega), hl1]
  generalize hd3 : memcpy d2 38 _ = d3
  have hl3 : d3.length = p.pkData.length := by rw [← hd3, memcpy_length _ _ _ (by simp; omega), hl2]
  generalize hd4 : memcpy d3 42 buf = d4
  have hl4 : d4.length = p.pkData.length := by rw [← hd4, memcpy_length _ _ _ (by omega), hl3]
  have hlow : ∀ i, i + 2 ≤ 40 → slice (memcpy d4 40 [(0 : UInt16).toUInt8, ((0 : UInt16) >>> 8).toUInt8]) i 2 =
      slice d3 i 2 := by
    intro i hi
    rw [slice_memcpy_of_disjoint (by simp; omega) (by omega), ← hd4,
      slice_memcpy_of_disjoint (by omega) (by omega)]
  have hsport : slice d3 34 2 = [sport.toUInt8, (sport >>> 8).toUInt8] := by
    rw [← hd3, slice_memcpy_of_disjoint (by simp; omega) (by omega), ← hd2,
      slice_memcpy_of_disjoint (by simp; omega) (by omega), ← hd1]
    exact slice_memcpy_self _ [_, _] (by omega)
  have hdport : slice d3 36 2 = [dport.toUInt8, (dport >>> 8).toUInt8] := by
    rw [← hd3, slice_memcpy_of_disjoint (by simp; omega) (by omega), ← hd2]
    exact slice_memcpy_self _ [_, _] (by omega)
  have hlength : slice d3 38 2 = [(htons (UInt16.ofNat (buf.length + 8))).toUInt8,
      (htons (UInt16.ofNat (buf.length + 8)) >>> 8).toUInt8] := by
    rw [← hd3]
    exact slice_memcpy_self _ [_, _] (by omega)
  have hzero : slice (memcpy d4 40 [(0 : UInt16).toUInt8, ((0 : UInt16) >>> 8).toUInt8]) 40 2 = [0, 0] :=
    slice_memcpy_self _ [_, _] (by omega)
  have hdata : slice (memcpy d4 40 [(0 : UInt16).toUInt8, ((0 : UInt16) >>> 8).toUInt8]) 42 buf.length = buf := by
    rw [slice_memcpy_of_disjoint (by simp; omega) (by simp), ← hd4, slice_memcpy_self _ _ (by omega)]
  rw [hcut, hlow 34 (by omega), hlow 36 (by omega), hlow 38 (by omega), hsport, hdport, hlength, hzero, hdata]

lemma loadShortAt_udpBytes (sport dport : UInt16) (buf : List UInt8) :
    loadShortAt (udpBytes sport dport buf) 4 = htons (UInt16.ofNat (buf.length + 8)) ∧
    loadShortAt (udpBytes sport dport buf) 6 = 0 :=
  ⟨loadShort_bytes _, rfl⟩

def udpSeal (src dst : UInt32) (sport dport : UInt16) (buf : List UInt8) : UInt16 :=
  let cksum := udpChksum src dst (UInt16.ofNat (buf.length + 8)) (udpBytes sport dport buf)
  if cksum = 0 then 0xffff else cksum

lemma udpSeal_ne_zero (src dst : UInt32) (sport dport : UInt16) (buf : List UInt8) :
    udpSeal src dst sport dport buf ≠ 0 := by
  simp only [udpSeal]
  split_ifs with hc
  · decide
  · exact hc

lemma udpSetChecksum_eq {u : Pkbuf} {src dst : UInt32} {length : UInt16} {bytes : List UInt8}
    (hu : setShort 40 p 0 = u) (hsrc : ipSrc u = src) (hdst : ipDst u = dst)
    (hlen : ntohs (loadShortAt u.pkData 38) = length) (hbytes : slice u.pkData 34 length.toNat = bytes) :
    udpSetChecksum p = setShort 40 u
      (if udpChksum src dst length bytes = 0 then 0xffff else udpChksum src dst length bytes) := by
  subst hu hsrc hdst hlen hbytes
  rfl

lemma udpFill_eq (sport dport : UInt16) (h : 42 + buf.length ≤ p.pkData.length) (hl : buf.length ≤ 65507) :
    udpFill p sport dport buf =
      setShort 40 (udpUnsealed p sport dport buf) (udpSeal (ipSrc p) (ipDst p) sport dport buf) := by
  have ha := apart_udpUnsealed sport dport h
  have hsrc : ipSrc (udpUnsealed p sport dport buf) = ipSrc p :=
    loadIntAt_congr fun j hj => ha.bytes _ (by omega)
  have hdst : ipDst (udpUnsealed p sport dport buf) = ipDst p :=
    loadIntAt_congr fun j hj => ha.bytes _ (by omega)
  have hlen : loadShortAt (udpUnsealed p sport dport buf).pkData 38 = htons (UInt16.ofNat (buf.length + 8)) := by
    rw [← (loadShortAt_udpBytes sport dport buf).1, ← udpUnsealed_slice sport dport h,
      loadShortAt_slice _ _ _ (by omega)]
  have hnat : (UInt16.ofNat (buf.length + 8)).toNat = 8 + buf.length := by
    rw [UInt16.toNat_ofNat']
    omega
  have hfill : udpFill p sport dport buf = udpSetChecksum (udpFilled p sport dport buf) := rfl
  rw [hfill]
  apply udpSetChecksum_eq (u := udpUnsealed p sport dport buf) rfl hsrc hdst
  · rw [hlen, ntohs_htons]
  · rw [hnat, udpUnsealed_slice sport dport h]

structure Received (src dst : UInt32) (bytes : List UInt8) (q : Pkbuf) : Prop where
  hlen : iphlen q = 20
  dlen : ipdlen q = bytes.length
  src : ipSrc q = src
  dst : ipDst q = dst
  bytes : slice q.pkData 34 bytes.length = bytes

lemma received (h : Headed id (28 + buf.length) p) (hl : buf.length ≤ 65507) (sport dport : UInt16) :
    Received (ipSrc p) (ipDst p) (storeShortAt (udpBytes sport dport buf) 6
      (udpSeal (ipSrc p) (ipDst p) sport dport buf)) (ipNtoh (udpFill p sport dport buf)) := by
  have hp : p.pkData.length = 42 + buf.length := by
    rw [h.length]
    simp only [ETH_HRD_SZ]
    omega
  have hd := h.udpFill sport dport le_rfl
  have hb : (storeShortAt (udpBytes sport dport buf) 6
      (udpSeal (ipSrc p) (ipDst p) sport dport buf)).length = 8 + buf.length := by
    rw [storeShortAt_length] <;> simp [udpBytes]
    omega
  have ha := apart_udpUnsealed sport dport hp.ge
  have hseal := udpFill_eq sport dport hp.ge hl
  have hu : 42 + buf.length ≤ (udpUnsealed p sport dport buf).pkData.length := by rw [ha.length, hp]
  have ha' : Apart 40 42 (udpUnsealed p sport dport buf) (udpFill p sport dport buf) := by
    rw [hseal]
    exact apart_setShort (by omega)
  have hdl : (udpFill p sport dport buf).pkData.length = 42 + buf.length := by rw [ha'.length, ha.length, hp]
  have hbyte : ∀ i, 22 ≤ i → (ipNtoh (udpFill p sport dport buf)).pkData[i]? = (udpFill p sport dport buf).pkData[i]? :=
    fun i hi => ipNtoh_getElem? (by omega) (by omega)
  have hold : ∀ i, 22 ≤ i → i < 34 → (ipNtoh (udpFill p sport dport buf)).pkData[i]? = p.pkData[i]? := by
    intro i hi hi'
    rw [hbyte i hi, ha'.bytes i (by omega), ha.bytes i (by omega)]
  have hhlen : iphlen (ipNtoh (udpFill p sport dport buf)) = 20 := by
    rw [iphlen, ipHlen, List.getD_eq_getElem?_getD, ipNtoh_getElem? (by omega) (by omega), hd.first]
    rfl
  refine ⟨hhlen, ?_, ?_, ?_, ?_⟩
  · rw [ipdlen, hhlen, ipNtoh_ipLen (by omega), hd.len, ntohs_htons, UInt16.toNat_ofNat', hb]
    omega
  · exact loadIntAt_congr fun j hj => hold _ (by omega) (by omega)
  · exact loadIntAt_congr fun j hj => hold _ (by omega) (by omega)
  · rw [hb, slice_ipNtoh (by omega) (by omega), hseal, ← udpUnsealed_slice sport dport hp.ge]
    exact slice_storeShortAt (i := 6) (by omega) (by omega) _

lemma udpBytes_length (sport dport : UInt16) (buf : List UInt8) :
    (udpBytes sport dport buf).length = 8 + buf.length := by
  simp [udpBytes]
  omega

lemma udpChksum_seal_iff (src dst : UInt32) (sport dport : UInt16) (buf : List UInt8) :
    udpChksum src dst (UInt16.ofNat (buf.length + 8))
        (storeShortAt (udpBytes sport dport buf) 6 (udpSeal src dst sport dport buf)) = 0 ↔
      wideSum src dst IP_P_UDP (UInt16.ofNat (buf.length + 8)) (udpBytes sport dport buf) % 2 ^ 32 ≠ 2 ^ 32 - 1 := by
  rw [← wideSum_mod]
  apply checksum_sealed_iff
  · rw [udpBytes_length]
    omega
  · rfl
  · exact (loadShortAt_udpBytes sport dport buf).2

theorem udp_accepts_own_iff (h : Headed id (28 + buf.length) p) (hl : buf.length ≤ 65507) (sport dport : UInt16) :
    udpChecksum (ipNtoh (udpFill p sport dport buf)) ≠ 0 ∧
    (udpAccepts (ipNtoh (udpFill p sport dport buf)) = true ↔
      wideSum (ipSrc p) (ipDst p) IP_P_UDP (UInt16.ofNat (buf.length + 8)) (udpBytes sport dport buf) % 2 ^ 32 ≠
        2 ^ 32 - 1) := by
  have hr := received h hl sport dport
  generalize ipNtoh (udpFill p sport dport buf) = q at hr ⊢
  have hl' := udpBytes_length sport dport buf
  rw [← udpChksum_seal_iff]
  generalize hw : udpSeal (ipSrc p) (ipDst p) sport dport buf = w at hr ⊢
  have hn : (storeShortAt (udpBytes sport dport buf) 6 w).length = 8 + buf.length := by
    rw [storeShortAt_length (by omega), hl']
  have hip : ip2udp q = 34 := by rw [ip2udp, hr.hlen]; rfl
  have hload : ∀ i, i + 2 ≤ 8 + buf.length →
      loadShortAt q.pkData (34 + i) = loadShortAt (storeShortAt (udpBytes sport dport buf) 6 w) i := by
    intro i hi
    rw [← hr.bytes, loadShortAt_slice _ _ _ (by omega)]
  have hck : udpChecksum q = w := by
    rw [udpChecksum, hip, hload 6 (by omega), loadShortAt_storeShortAt (by omega)]
  have hlen : udpLength q = 8 + buf.length := by
    rw [udpLength, hip, hload 4 (by omega), loadShortAt_storeShortAt_ne (by omega) (by omega),
      (loadShortAt_udpBytes sport dport buf).1, ntohs_htons, UInt16.toNat_ofNat']
    omega
  have hdlen : ipdlen q = 8 + buf.length := by
    rw [hr.dlen, hn]
    push_cast
    rfl
  have hcov : udpCovered q = ((buf.length + 8 : ℕ) : ℤ) := by
    rw [udpCovered, hdlen, hlen, min_self]
    push_cast
    omega
  have hne : w ≠ 0 := hw ▸ udpSeal_ne_zero _ _ _ _ _
  refine ⟨hck ▸ hne, ?_⟩
  have hnat : UInt16.ofInt ((buf.length + 8 : ℕ) : ℤ) = UInt16.ofNat (buf.length + 8) := by
    rw [← UInt16.toNat_inj]
    simp only [UInt16.ofInt, UInt16.toNat_ofNat']
    omega
  have hbytes : slice q.pkData 34 (buf.length + 8) = storeShortAt (udpBytes sport dport buf) 6 w := by
    rw [Nat.add_comm, ← hn, hr.bytes]
  rw [udpAccepts, udpVerifies, hck, hcov, hip, hr.src, hr.dst, hdlen, hlen, Int.toNat_natCast, hnat, hbytes]
  simp [UDP_HRD_SZ, hne]

def addressed (src dst : UInt32) (n : ℕ) : Pkbuf :=
  setIpSrc (ipFill (allocPkb 0 (ETH_HRD_SZ + n)) 0 (UInt16.ofNat n) 0 UDP_DEFAULT_TTL IP_P_UDP.toUInt8 dst) src

lemma headed_addressed (src dst : UInt32) {n : ℕ} (h : IP_HRD_SZ ≤ n) : Headed 0 n (addressed src dst n) :=
  (headed_ipFill List.length_replicate h _ _ _ _).setIpSrc _

theorem udp_accepts_own_two :
    udpAccepts (ipNtoh (udpFill (addressed 0x0100000a 0x0200000a 30) 0x0700 0x0700 [0xeb, 0xcc])) = true :=
  have h : Headed 0 (28 + [(0xeb : UInt8), 0xcc].length) (addressed 0x0100000a 0x0200000a 30) :=
    headed_addressed _ _ (by decide)
  (udp_accepts_own_iff h (by decide) 0x0700 0x0700).2.mpr (by decide +kernel)

/-- From 10.0.0.1:7 to 10.0.255.254:7, where the sum is all ones in 32 bits. -/
theorem udp_refuses_own : Headed 0 30 (addressed 0x0100000a 0xfeff000a 30) ∧
    udpChecksum (ipNtoh (udpFill (addressed 0x0100000a 0xfeff000a 30) 0x0700 0x0700 [0xeb, 0xcc])) = 0xffff ∧
    udpAccepts (ipNtoh (udpFill (addressed 0x0100000a 0xfeff000a 30) 0x0700 0x0700 [0xeb, 0xcc])) = false :=
  ⟨headed_addressed _ _ (by decide), by decide +kernel, by decide +kernel⟩

end Seal

end Tapip.Sockets.Datagram
