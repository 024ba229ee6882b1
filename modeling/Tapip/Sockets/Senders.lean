import Tapip.Net.ArpCache
import Tapip.Tcp.Custody

/-! The four ways in which the stack makes a datagram (udp/udp_sock.c, socket/raw_sock.c, tcp/tcp_out.c,
ip/ip_out.c) and what identifies it. -/

namespace Tapip.Sockets.Senders

open Foundation.Bytes Foundation.Program Net Net.ByteOrder Net.Pkb Ip.Header Ip.Frag Ip.Out Ip.In Lib.Checksum
open Tcp (Sock OutTcp TcpSegment getSk tcpRoute tcpSendOut)

variable {buf : List UInt8} {sk : Sock} {tsk : Option ℕ} {out : OutTcp}

structure Sender where
  stack : Stack
  udpId : UInt16
  rawId : UInt16

variable {α : Type}

def onStack (x : Prog Stack α) : Prog Sender α := fun s =>
  (x s.stack).map fun p => (p.1, { s with stack := p.2 })

structure SockAddr where
  dstAddr : UInt32
  dstPort : UInt16

section Udp

def UDP_MAX_BUFSZ : ℕ := 0xffff - 8
def UDP_DEFAULT_TTL : UInt8 := 64

def udpSetChecksum (pkb : Pkbuf) : Pkbuf :=
  let pkb := setShort 40 pkb 0
  let length := ntohs (loadShortAt pkb.pkData 38)
  let cksum := udpChksum (ipSrc pkb) (ipDst pkb) length (slice pkb.pkData 34 length.toNat)
  setShort 40 pkb (if cksum = 0 then 0xffff else cksum)

def udpFill (pkb : Pkbuf) (sport dport : UInt16) (buf : List UInt8) : Pkbuf :=
  let pkb := setShort 36 (setShort 34 pkb sport) dport
  let pkb := setShort 38 pkb (htons (UInt16.ofNat (buf.length + 8)))
  udpSetChecksum { pkb with pkData := memcpy pkb.pkData 42 buf }

def udpInitPkb (sk : Sock) (pkb : Pkbuf) (buf : List UInt8) (skaddr : SockAddr) :
    Prog Sender (Option Pkbuf) := do
  let len := UInt16.ofNat (pkb.pkLen - ETH_HRD_SZ)
  let pkb := ipFill pkb 0 len (← get).udpId UDP_DEFAULT_TTL sk.protocol skaddr.dstAddr
  match ← onStack (rtOutput pkb) with
  | none => return none
  | some pkb => return some (udpFill pkb sk.skSport skaddr.dstPort buf)

-- `junk` is what stands in the local variable that is not set when there is no destination.
def udpAddr (sk : Sock) (junk : SockAddr) : Option SockAddr → SockAddr
  | some skaddr => skaddr
  | none => if sk.skDport ≠ 0 then ⟨sk.skDaddr, sk.skDport⟩ else junk

def udpPacket (sk : Sock) (autobind : Option UInt16) (junk : SockAddr) (buf : List UInt8)
    (skaddr : Option SockAddr) : Prog Sender (Option Pkbuf) :=
  if buf.length = 0 || buf.length > UDP_MAX_BUFSZ then return none
  else
    let addr := udpAddr sk junk skaddr
    if addr.dstAddr = 0 || addr.dstPort = 0 then return none
    else match if sk.skSport ≠ 0 then some sk.skSport else autobind with
      | none => return none
      | some sport => do
        let pkb ← onStack (Stack.allocPkb (ETH_HRD_SZ + IP_HRD_SZ + 8 + buf.length))
        match ← udpInitPkb { sk with skSport := sport } pkb buf addr with
        | none =>
          onStack (Stack.freePkb pkb)
          return none
        | some pkb => return some pkb

def udpAllocSock (protocol : ℕ) : Prog Sender Bool := fun s =>
  if protocol ≠ 0 ∧ protocol ≠ IP_P_UDP.toNat then .ok (false, s)
  else .ok (true, { s with udpId := s.udpId + 1 })

end Udp

section Raw

def RAW_MAX_BUFSZ : ℕ := 65536
def RAW_DEFAULT_TTL : UInt8 := 64

def rawInitPkb (sk : Sock) (pkb : Pkbuf) (skaddr : SockAddr) : Prog Sender Pkbuf := do
  let len := UInt16.ofNat (pkb.pkLen - ETH_HRD_SZ)
  return setIpSrc (ipFill pkb 0 len (← get).rawId RAW_DEFAULT_TTL sk.protocol skaddr.dstAddr) sk.skSaddr

def rawPacket (sk : Sock) (buf : List UInt8) (skaddr : SockAddr) : Prog Sender (Option Pkbuf) :=
  if buf.length > RAW_MAX_BUFSZ then return none
  else do
    let pkb ← onStack (Stack.allocPkb (ETH_HRD_SZ + IP_HRD_SZ + buf.length))
    let pkb := { pkb with pkData := memcpy pkb.pkData (ETH_HRD_SZ + IP_HRD_SZ) buf }
    return some (← rawInitPkb sk pkb skaddr)

def rawAllocSock (protocol : ℕ) : Prog Sender Bool := fun s =>
  if protocol = 0 then .ok (false, s) else .ok (true, { s with rawId := s.rawId + 1 })

end Raw

section Stack

def tcpPacket (netIn : NetIn) (tsk : Option ℕ) (pkb : Pkbuf) (out : OutTcp)
    (seg : Option TcpSegment) : Prog Stack (Option Pkbuf) := do
  let (saddr, daddr) ← match seg, tsk with
    | some seg, _ => pure (seg.iphdrDst, seg.iphdrSrc)
    | none, some id => do
      let t ← getSk (stackEnv netIn) id
      pure (t.sk.skSaddr, t.sk.skDaddr)
    | none, none => Tcp.fault .assertion
  match ← tcpRoute (stackEnv netIn) tsk daddr with
  | none =>
    Stack.freePkb pkb
    return none
  | some rt => return some (tcpFill pkb (← get).tcp.tcpId rt saddr daddr out)

def infoPacket (pkb : Pkbuf) (tos : UInt8) (len : UInt16) (ttl pro : UInt8) (dst : UInt32) :
    Prog Stack (Option Pkbuf) := do
  return some (ipFill pkb tos len (← nextIpid) ttl pro dst)

def outgoing (s : Stack) (pkb : Pkbuf) : Option Pkbuf :=
  let pkb := { pkb with pkPro := ETH_P_IP }
  if pkb.pkRtdst.isSome then some (ipSetChecksum pkb)
  else do
    let rt ← rtLookup s.rtHead (ipDst pkb)
    let nd ← s.netDevices[rt.rtDev]?
    return ipSetChecksum (setIpSrc { pkb with pkRtdst := some rt } nd.netIpaddr)

end Stack

section Calls

variable (netIn : NetIn)

def sendPacket : Option Pkbuf → Prog Stack Unit
  | none => pure ()
  | some pkb => ipSendOut netIn pkb

def udpSendBuf (sk : Sock) (autobind : Option UInt16) (junk : SockAddr) (buf : List UInt8)
    (skaddr : Option SockAddr) : Prog Sender Unit := do
  onStack (sendPacket netIn (← udpPacket sk autobind junk buf skaddr))

def rawSendBuf (sk : Sock) (buf : List UInt8) (skaddr : SockAddr) : Prog Sender Unit := do
  onStack (sendPacket netIn (← rawPacket sk buf skaddr))

lemma tcpSendOut_eq (tsk : Option ℕ) (pkb : Pkbuf) (out : OutTcp) (seg : Option TcpSegment) :
    tcpSendOut (stackEnv netIn) tsk pkb out seg = tcpPacket netIn tsk pkb out seg >>= sendPacket netIn := by
  have hroute : ∀ saddr daddr, (do
      match ← tcpRoute (stackEnv netIn) tsk daddr with
      | none => (stackEnv netIn).freePkb pkb
      | some rt => (stackEnv netIn).ipSendOut pkb rt saddr daddr out : Prog Stack Unit) = (do
      match ← tcpRoute (stackEnv netIn) tsk daddr with
      | none =>
        Stack.freePkb pkb
        return none
      | some rt => return some (tcpFill pkb (← get).tcp.tcpId rt saddr daddr out) : Prog Stack _) >>=
        sendPacket netIn := by
    intro saddr daddr
    rw [bind_assoc]
    congr 1
    funext r
    cases r with
    | none =>
      simp only [bind_assoc, pure_bind, sendPacket]
      exact (bind_pure_unit).symm
    | some rt => rfl
  cases seg with
  | some seg => exact hroute _ _
  | none =>
    cases tsk with
    | none => rfl
    | some id =>
      simp only [tcpSendOut, tcpPacket]
      rw [bind_assoc]
      congr 1
      funext t
      exact hroute _ _

lemma ipSendInfo_eq (pkb : Pkbuf) (tos : UInt8) (len : UInt16) (ttl pro : UInt8) (dst : UInt32) :
    ipSendInfo netIn pkb tos len ttl pro dst = infoPacket pkb tos len ttl pro dst >>= sendPacket netIn := by
  rfl

lemma ipSendOut_eq (pkb : Pkbuf) (s : Stack) (hdev : ∀ rt ∈ s.rtHead, (s.netDevices[rt.rtDev]?).isSome) :
    ipSendOut netIn pkb s = match outgoing s pkb with
      | none => Stack.freePkb pkb s
      | some p => (do ipSendRoute netIn (← rtdst p).rtDev p : Prog Stack Unit) s := by
  simp only [ipSendOut, outgoing]
  have hfree : Stack.freePkb pkb s = Stack.freePkb { pkb with pkPro := ETH_P_IP } s := rfl
  rw [hfree]
  generalize hq : { pkb with pkPro := ETH_P_IP } = q
  split_ifs with hrt
  · rfl
  · cases hlook : rtLookup s.rtHead (ipDst q) with
    | none =>
      have hrun : rtOutput q s = .ok (none, s) := by simp only [rtOutput, hlook]
      rw [bind_run hrun]
      rfl
    | some rt =>
      obtain ⟨nd, hnd⟩ := Option.isSome_iff_exists.mp (hdev rt (List.mem_of_find?_eq_some hlook))
      have hrun : rtOutput q s = .ok (some (setIpSrc { q with pkRtdst := some rt } nd.netIpaddr), s) := by
        simp only [rtOutput, hlook, hnd]
      rw [bind_run hrun]
      simp only [Option.bind_eq_bind, Option.bind_some, hnd, Option.pure_def]
      subst hq
      rfl

end Calls

variable {p q : Pkbuf} {n : ℕ} {id : UInt16}

section Header

structure Apart (lo hi : ℕ) (p q : Pkbuf) : Prop where
  length : q.pkData.length = p.pkData.length
  bytes : ∀ i, i < lo ∨ hi ≤ i → q.pkData[i]? = p.pkData[i]?

structure Headed (id : UInt16) (n : ℕ) (d : Pkbuf) : Prop where
  length : d.pkData.length = ETH_HRD_SZ + n
  ge : IP_HRD_SZ ≤ n
  first : d.pkData[14]? = some 0x45
  len : ipLen d = htons (UInt16.ofNat n)
  ident : ipId d = htons id
  fragoff : ipFragoff d = 0

variable {lo hi off : ℕ}

lemma apart_memcpy (src : List UInt8) (h : off + src.length ≤ p.pkData.length)
    (hq : q.pkData = memcpy p.pkData off src) : Apart off (off + src.length) p q := by
  refine ⟨by rw [hq, memcpy_length _ _ _ h], fun i hi => ?_⟩
  rw [hq, memcpy_getElem?_of_not_mem _ _ _ _ h hi]

lemma apart_setShort (h : i + 2 ≤ p.pkData.length) : Apart i (i + 2) p (setShort i p v) :=
  ⟨setShort_length h, fun _ hj => setShort_getElem? h hj⟩

lemma apart_setByte (h : i + 1 ≤ p.pkData.length) : Apart i (i + 1) p (setByte i p v) :=
  apart_memcpy [v] h rfl

lemma apart_setInt (h : i + 4 ≤ p.pkData.length) : Apart i (i + 4) p (setInt i p v) :=
  apart_memcpy (storeInt v) h rfl

lemma Apart.loadShort (h : Apart lo hi p q) (hi : i + 2 ≤ lo ∨ hi ≤ i) :
    loadShortAt q.pkData i = loadShortAt p.pkData i :=
  loadShortAt_congr (h.bytes i (by omega)) (h.bytes (i + 1) (by omega))

lemma Apart.widen (h : Apart lo hi p q) (hlo : lo' ≤ lo) (hhi : hi ≤ hi') : Apart lo' hi' p q :=
  ⟨h.length, fun i hi => h.bytes i (by omega)⟩

lemma Apart.trans (h : Apart lo hi p q) (h' : Apart lo hi q r) : Apart lo hi p r :=
  ⟨h'.length.trans h.length, fun i hi => (h'.bytes i hi).trans (h.bytes i hi)⟩

lemma Apart.refl (lo hi : ℕ) (p : Pkbuf) : Apart lo hi p p := ⟨rfl, fun _ _ => rfl⟩

lemma apart_ipSetChecksum (h : 26 ≤ p.pkData.length) : Apart 24 26 p (ipSetChecksum p) := by
  have h1 : Apart 24 26 p (setIpCksum p 0) := apart_setShort h
  exact h1.trans (apart_setShort (by rw [h1.length]; exact h))

section Inside

variable (h : Apart lo hi p q) (hl : hi ≤ p.pkData.length) (i : ℕ) (hlo : lo ≤ i)

include h hl hlo

lemma Apart.memcpy (src : List UInt8) (hhi : i + src.length ≤ hi)
    (hr : r.pkData = memcpy q.pkData i src) : Apart lo hi p r :=
  h.trans ((apart_memcpy src (by rw [h.length]; omega) hr).widen hlo hhi)

lemma Apart.setByte (hhi : i + 1 ≤ hi) (v : UInt8) : Apart lo hi p (setByte i q v) :=
  h.memcpy hl i hlo [v] hhi rfl

lemma Apart.setShort (hhi : i + 2 ≤ hi) (v : UInt16) : Apart lo hi p (setShort i q v) :=
  h.memcpy hl i hlo [v.toUInt8, (v >>> 8).toUInt8] hhi rfl

lemma Apart.setInt (hhi : i + 4 ≤ hi) (v : UInt32) : Apart lo hi p (setInt i q v) :=
  h.memcpy hl i hlo (storeInt v) hhi rfl

end Inside

lemma apart_ipFill (hl : 34 ≤ p.pkData.length) (tos : UInt8) (len id : UInt16) (ttl pro : UInt8) (dst : UInt32) :
    Apart 14 34 p (ipFill p tos len id ttl pro dst) ∧ ipDst (ipFill p tos len id ttl pro dst) = dst ∧
      (ipFill p tos len id ttl pro dst).pkData[23]? = some pro := by
  have h1 := ((Apart.refl 14 34 p).setByte hl 14 le_rfl (by omega) 0x45).setByte hl 15 (by omega) (by omega) tos
  have h2 := h1.setShort hl 16 (by omega) (by omega) (htons len)
  have h3 := (h2.setShort hl 18 (by omega) (by omega) (htons id)).setShort hl 20 (by omega) (by omega) 0
  have h4 := h3.setByte hl 22 (by omega) (by omega) ttl
  have h5 := h4.setByte hl 23 (by omega) (by omega) pro
  simp only [ipFill, setIpLen, setIpId, setIpFragoff, setIpDst]
  refine ⟨h5.setInt hl 30 (by omega) le_rfl dst, loadIntAt_memcpy _ dst (by rw [h5.length]; omega), ?_⟩
  rw [(apart_setInt (by rw [h5.length]; omega)).bytes 23 (by omega)]
  exact (memcpy_getElem? _ [pro] 23 23 (by rw [h4.length]; simp; omega)).trans (by simp)

lemma Headed.apart (h : Headed id n p) (ha : Apart lo hi p q) (hlo : 22 ≤ lo) : Headed id n q where
  length := ha.length.trans h.length
  ge := h.ge
  first := (ha.bytes 14 (by omega)).trans h.first
  len := (ha.loadShort (by omega)).trans h.len
  ident := (ha.loadShort (by omega)).trans h.ident
  fragoff := (ha.loadShort (by omega)).trans h.fragoff

lemma Headed.size (h : Headed id n p) : 34 ≤ p.pkData.length := by
  have := h.ge
  rw [h.length]
  simp only [ETH_HRD_SZ, IP_HRD_SZ] at this ⊢
  omega

lemma headed_ipFill (hp : p.pkData.length = ETH_HRD_SZ + n) (hn : IP_HRD_SZ ≤ n) (tos ttl pro : UInt8)
    (dst : UInt32) : Headed id n (ipFill p tos (UInt16.ofNat n) id ttl pro dst) := by
  obtain ⟨he, hi⟩ := header_sizes
  have h1 : (setByte 14 p 0x45).pkData.length = p.pkData.length := (apart_setByte (by omega)).length
  have hfirst : (setByte 14 p 0x45).pkData[14]? = some 0x45 := by
    simp only [setByte]
    rw [memcpy_getElem? _ _ _ _ (by simp; omega)]
    rfl
  have h2 : Apart 15 16 (setByte 14 p 0x45) (setByte 15 (setByte 14 p 0x45) tos) := apart_setByte (by omega)
  simp only [ipFill, setIpLen, setIpId, setIpFragoff, setIpDst]
  generalize setByte 15 (setByte 14 p 0x45) tos = p2 at h2 ⊢
  have hlen := h2.length.trans h1
  have h3 : Apart 16 18 p2 (setShort 16 p2 (htons (UInt16.ofNat n))) := apart_setShort (by omega)
  have hl : loadShortAt (setShort 16 p2 (htons (UInt16.ofNat n))).pkData 16 = htons (UInt16.ofNat n) :=
    setShort_load (by omega)
  generalize setShort 16 p2 (htons (UInt16.ofNat n)) = p3 at h3 hl ⊢
  have h4 : Apart 18 20 p3 (setShort 18 p3 (htons id)) := apart_setShort (by rw [h3.length]; omega)
  have hid : loadShortAt (setShort 18 p3 (htons id)).pkData 18 = htons id :=
    setShort_load (by rw [h3.length]; omega)
  generalize setShort 18 p3 (htons id) = p4 at h4 hid ⊢
  have hlen4 : p4.pkData.length = p.pkData.length := (h4.length.trans h3.length).trans hlen
  have h5 : Apart 20 22 p4 (setShort 20 p4 0) := apart_setShort (by omega)
  have hfr : loadShortAt (setShort 20 p4 0).pkData 20 = 0 := setShort_load (by omega)
  generalize setShort 20 p4 0 = p5 at h5 hfr ⊢
  have hlen5 := h5.length.trans hlen4
  have hbase : Headed id n p5 := by
    refine ⟨hlen5.trans hp, hn, ?_, ?_, ?_, hfr⟩
    · rw [h5.bytes 14 (by omega), h4.bytes 14 (by omega), h3.bytes 14 (by omega), h2.bytes 14 (by omega), hfirst]
    · rw [ipLen, h5.loadShort (by omega), h4.loadShort (by omega), hl]
    · rw [ipId, h5.loadShort (by omega), hid]
  have h6 : Apart 22 23 p5 (setByte 22 p5 ttl) := apart_setByte (by omega)
  have h7 : Apart 23 24 (setByte 22 p5 ttl) (setByte 23 (setByte 22 p5 ttl) pro) :=
    apart_setByte (by rw [h6.length]; omega)
  refine ((hbase.apart h6 le_rfl).apart h7 (by omega)).apart (apart_setInt ?_) (by omega)
  rw [h7.length, h6.length]
  omega

end Header

section Packets

lemma Headed.congr (h : Headed id n p) (hq : q.pkData = p.pkData) : Headed id n q := by
  have ha : Apart 22 22 p q := ⟨by rw [hq], fun _ _ => by rw [hq]⟩
  exact h.apart ha le_rfl

lemma Headed.setIpSrc (h : Headed id n p) (v : UInt32) : Headed id n (setIpSrc p v) :=
  h.apart (apart_setInt (by have := h.size; omega)) (by omega)

lemma Headed.setShort (h : Headed id n p) (i : ℕ) (hi : 22 ≤ i) (hn : i + 2 ≤ ETH_HRD_SZ + n) (v : UInt16) :
    Headed id n (setShort i p v) :=
  h.apart (apart_setShort (by rw [h.length]; exact hn)) hi

lemma Headed.ipSetChecksum (h : Headed id n p) : Headed id n (ipSetChecksum p) := by
  have hge := h.ge
  simp only [IP_HRD_SZ] at hge
  have hfit : 24 + 2 ≤ ETH_HRD_SZ + n := by
    simp only [ETH_HRD_SZ]
    omega
  exact (h.setShort 24 (by omega) hfit 0).setShort 24 (by omega) hfit _

lemma Headed.udpFill (h : Headed id n p) (sport dport : UInt16)
    (hn : 28 + buf.length ≤ n) : Headed id n (udpFill p sport dport buf) := by
  have he : ETH_HRD_SZ = 14 := rfl
  have hfit : ∀ {i}, i ≤ 40 → i + 2 ≤ ETH_HRD_SZ + n := fun hi => by omega
  have h1 := ((h.setShort 34 (by omega) (hfit (by omega)) sport).setShort 36 (by omega) (hfit (by omega))
    dport).setShort 38 (by omega) (hfit (by omega)) (htons (UInt16.ofNat (buf.length + 8)))
  simp only [Senders.udpFill]
  generalize Ip.Header.setShort 38 _ _ = p1 at h1 ⊢
  have ha : Apart 42 (42 + buf.length) p1 { p1 with pkData := memcpy p1.pkData 42 buf } :=
    apart_memcpy buf (by rw [h1.length]; omega) rfl
  have h2 := h1.apart ha (by omega)
  exact (h2.setShort 40 (by omega) (hfit le_rfl) 0).setShort 40 (by omega) (hfit le_rfl) _

lemma ipFill_pkLen (p : Pkbuf) (tos : UInt8) (len id : UInt16) (ttl pro : UInt8) (dst : UInt32) :
    (ipFill p tos len id ttl pro dst).pkLen = p.pkLen := by
  simp only [ipFill, setIpLen, setIpId, setIpFragoff, setIpDst, setInt, setByte, setShort]

lemma udpFill_pkLen (p : Pkbuf) (sport dport : UInt16) (buf : List UInt8) :
    (udpFill p sport dport buf).pkLen = p.pkLen := by
  simp only [udpFill, udpSetChecksum, setShort]

lemma Headed.outgoing (h : Headed id n p) (ho : outgoing s p = some q) : Headed id n q := by
  simp only [Senders.outgoing] at ho
  split_ifs at ho
  · cases ho
    have hp : Headed id n { p with pkPro := ETH_P_IP } := h.congr rfl
    exact hp.ipSetChecksum
  · simp only [Option.bind_eq_bind, Option.bind_eq_some_iff, Option.pure_def, Option.some.injEq] at ho
    obtain ⟨rt, -, nd, -, rfl⟩ := ho
    have hp : Headed id n { p with pkPro := ETH_P_IP, pkRtdst := some rt } := h.congr rfl
    exact (hp.setIpSrc _).ipSetChecksum

def maxDatagram : ℕ := 0x10000 + 28

lemma onStack_inv (h : onStack x s = .ok (a, s')) : ∃ t, x s.stack = .ok (a, t) ∧ s' = { s with stack := t } := by
  simp only [onStack] at h
  cases hx : x s.stack with
  | error e => simp [hx, Except.map] at h
  | ok r =>
    simp only [hx, Except.map] at h
    cases h
    exact ⟨r.2, rfl, rfl⟩

lemma rtOutput_headed (h : rtOutput p s = .ok (r, s')) (hp : Headed id n p) :
    s' = s ∧ ∀ q ∈ r, Headed id n q ∧ q.pkLen = p.pkLen := by
  simp only [rtOutput] at h
  split at h
  · cases h
    exact ⟨rfl, by simp⟩
  · rename_i rt hrt
    split at h
    · simp at h
    · cases h
      refine ⟨rfl, fun q hq => ?_⟩
      cases hq
      have hr : Headed id n { p with pkRtdst := some rt } := hp.congr rfl
      exact ⟨hr.setIpSrc _, rfl⟩

end Packets

section Counters

inductive Kind where
  | udp
  | raw
  | tcp
  | info
deriving DecidableEq

def counter (s : Sender) : Kind → UInt16
  | .udp => s.udpId
  | .raw => s.rawId
  | .tcp => UInt16.ofInt s.stack.tcp.tcpId
  | .info => s.stack.ipid

def Keeps (s s' : Sender) : Prop := ∀ k, counter s' k = counter s k

def Labelled (id : UInt16) (r : Option Pkbuf) : Prop := ∀ p ∈ r, ∃ n ≤ maxDatagram, Headed id n p

def Made (id : UInt16) (n : ℕ) (r : Option Pkbuf) : Prop :=
  ∀ p ∈ r, Headed id n p ∧ p.pkLen = ETH_HRD_SZ + n ∧ n ≤ maxDatagram

variable {r : Option Pkbuf} {s s' : Sender}

lemma Keeps.refl : Keeps s s := fun _ => rfl

lemma keeps_stack (hip : t.ipid = s.stack.ipid) (htcp : t.tcp.tcpId = s.stack.tcp.tcpId) :
    Keeps s { s with stack := t } := by
  intro k
  cases k with
  | udp => rfl
  | raw => rfl
  | tcp => exact congrArg UInt16.ofInt htcp
  | info => exact hip

lemma labelled_none : Labelled id none := nofun

lemma labelled_some (h : Headed id n p) (hn : n ≤ maxDatagram) : Labelled id (some p) := by
  intro q hq
  cases hq
  exact ⟨n, hn, h⟩

lemma made_none : Made id n none := by simp [Made]

lemma made_some (h : Headed id n p) (hl : p.pkLen = ETH_HRD_SZ + n) (hn : n ≤ maxDatagram) : Made id n (some p) := by
  intro q hq
  cases hq
  exact ⟨h, hl, hn⟩

lemma Made.labelled (h : Made id n r) : Labelled id r :=
  fun p hp => ⟨n, (h p hp).2.2, (h p hp).1⟩

lemma Labelled.outgoing {s : Stack} (h : Labelled id r) : Labelled id (r.bind (outgoing s)) := by
  intro q hq
  obtain ⟨p, hp, ho⟩ := Option.bind_eq_some_iff.mp hq
  obtain ⟨n, hn, hd⟩ := h p hp
  exact ⟨n, hn, hd.outgoing ho⟩

lemma udpInitPkb_inv (h : udpInitPkb sk p buf skaddr s = .ok (r, s')) (hp : p.pkLen = ETH_HRD_SZ + n)
    (hd : p.pkData.length = ETH_HRD_SZ + n) (hn : 28 + buf.length ≤ n) :
    s' = s ∧ ∀ q ∈ r, Headed s.udpId n q ∧ q.pkLen = p.pkLen := by
  have hfill : Headed s.udpId n (ipFill p 0 (UInt16.ofNat (p.pkLen - ETH_HRD_SZ)) s.udpId UDP_DEFAULT_TTL
      sk.protocol skaddr.dstAddr) := by
    rw [hp, Nat.add_sub_cancel_left]
    exact headed_ipFill hd (by simp only [IP_HRD_SZ]; omega) _ _ _ _
  obtain ⟨s0, s1, hget, hrest⟩ := bind_inv h
  cases hget
  obtain ⟨routed, s2, hroute, hend⟩ := bind_inv hrest
  obtain ⟨t, hrt, rfl⟩ := onStack_inv hroute
  obtain ⟨rfl, hrouted⟩ := rtOutput_headed hrt hfill
  cases routed with
  | none =>
    cases hend
    exact ⟨rfl, nofun⟩
  | some q =>
    cases hend
    refine ⟨rfl, fun q' hq' => ?_⟩
    cases hq'
    refine ⟨(hrouted q rfl).1.udpFill _ _ hn, ?_⟩
    rw [udpFill_pkLen, (hrouted q rfl).2, ipFill_pkLen]

lemma udpPacket_inv (h : udpPacket sk autobind junk buf skaddr s = .ok (r, s')) :
    Keeps s s' ∧ Made (counter s .udp) (28 + buf.length) r := by
  have hnone : ∀ {s'}, (.ok (r, s') : Except Fault _) = .ok (none, s) →
      Keeps s s' ∧ Made (counter s .udp) (28 + buf.length) r := by
    intro s' he
    cases he
    exact ⟨.refl, made_none⟩
  simp only [udpPacket] at h
  generalize (if sk.skSport ≠ 0 then some sk.skSport else autobind) = sport at h
  split_ifs at h with hsize haddr
  · exact hnone h.symm
  · exact hnone h.symm
  simp only [Bool.or_eq_true, decide_eq_true_eq, not_or, not_lt] at hsize
  cases sport with
  | none => exact hnone h.symm
  | some sport =>
    obtain ⟨pkb, s1, halloc, hbody⟩ := bind_inv h
    obtain ⟨t, hnew, rfl⟩ := onStack_inv halloc
    obtain ⟨rfl, rfl⟩ := Net.ArpCache.allocPkb_inv hnew
    obtain ⟨q, s2, hinit, hend⟩ := bind_inv hbody
    have hlen : ((ETH_HRD_SZ : ℤ) + IP_HRD_SZ + 8 + buf.length).toNat = ETH_HRD_SZ + (28 + buf.length) := by
      simp only [ETH_HRD_SZ, IP_HRD_SZ]
      omega
    obtain ⟨rfl, hq⟩ := udpInitPkb_inv hinit hlen (by rw [← hlen]; exact List.length_replicate) le_rfl
    have hn : 28 + buf.length ≤ maxDatagram := by
      simp only [maxDatagram, UDP_MAX_BUFSZ] at hsize ⊢
      omega
    cases q with
    | none =>
      obtain ⟨u, s3, hfree, hret⟩ := bind_inv hend
      obtain ⟨t, hdrop, rfl⟩ := onStack_inv hfree
      obtain ⟨-, rfl⟩ := Net.ArpCache.freePkb_inv hdrop
      cases hret
      exact ⟨keeps_stack rfl rfl, made_none⟩
    | some q =>
      cases hend
      exact ⟨keeps_stack rfl rfl, made_some (hq q rfl).1 ((hq q rfl).2.trans hlen) hn⟩

lemma rawPacket_inv (h : rawPacket sk buf skaddr s = .ok (r, s')) :
    Keeps s s' ∧ Made (counter s .raw) (20 + buf.length) r := by
  simp only [rawPacket] at h
  split_ifs at h with hsize
  · cases h
    exact ⟨.refl, made_none⟩
  obtain ⟨pkb, s1, halloc, hbody⟩ := bind_inv h
  obtain ⟨t, hnew, rfl⟩ := onStack_inv halloc
  obtain ⟨rfl, rfl⟩ := Net.ArpCache.allocPkb_inv hnew
  cases hbody
  have hlen : ((ETH_HRD_SZ : ℤ) + IP_HRD_SZ + buf.length).toNat = ETH_HRD_SZ + (20 + buf.length) := by
    simp only [ETH_HRD_SZ, IP_HRD_SZ]
    omega
  have hn : 20 + buf.length ≤ maxDatagram := by
    simp only [maxDatagram, RAW_MAX_BUFSZ] at hsize ⊢
    omega
  refine ⟨keeps_stack rfl rfl, made_some ?_ hlen hn⟩
  have hdata : (memcpy (List.replicate (ETH_HRD_SZ + (20 + buf.length)) 0) (ETH_HRD_SZ + IP_HRD_SZ) buf).length =
      ETH_HRD_SZ + (20 + buf.length) := by
    rw [memcpy_length, List.length_replicate]
    simp only [List.length_replicate, ETH_HRD_SZ, IP_HRD_SZ]
    omega
  have hfill : ∀ q : Pkbuf, q.pkLen = ETH_HRD_SZ + (20 + buf.length) →
      q.pkData.length = ETH_HRD_SZ + (20 + buf.length) →
      Headed s.rawId (20 + buf.length) (setIpSrc (ipFill q 0 (UInt16.ofNat (q.pkLen - ETH_HRD_SZ)) s.rawId
        RAW_DEFAULT_TTL sk.protocol skaddr.dstAddr) sk.skSaddr) := by
    intro q hq hd
    rw [hq, Nat.add_sub_cancel_left]
    exact (headed_ipFill hd (by simp only [IP_HRD_SZ]; omega) _ _ _ _).setIpSrc _
  exact hfill _ hlen (by rw [← hdata, ← hlen]; rfl)

structure Fits (p : Pkbuf) (out : OutTcp) : Prop where
  length : p.pkData.length = p.pkLen
  segment : ETH_HRD_SZ + IP_HRD_SZ + (tcpBytes out).length ≤ p.pkLen
  le : p.pkLen ≤ ETH_HRD_SZ + maxDatagram

def SameIds (s s' : Stack) : Prop := s'.ipid = s.ipid ∧ s'.tcp.tcpId = s.tcp.tcpId

lemma SameIds.refl (s : Stack) : SameIds s s := ⟨rfl, rfl⟩

lemma SameIds.trans (h : SameIds s1 s2) (h' : SameIds s2 s3) : SameIds s1 s3 :=
  ⟨h'.1.trans h.1, h'.2.trans h.2⟩

lemma sameIds_freePkb : Respects SameIds (Stack.freePkb p) := by
  intro s u s' h
  obtain ⟨-, rfl⟩ := Net.ArpCache.freePkb_inv h
  exact .refl s

lemma sameIds_getSk {netIn : NetIn} {id : ℕ} : Respects SameIds (getSk (stackEnv netIn) id) := by
  intro s t s' h
  obtain ⟨rfl, -⟩ := Tcp.Custody.getSk_run h
  exact .refl s'

lemma sameIds_modifySk {netIn : NetIn} {id : ℕ} {f : Tcp.TcpSock → Tcp.TcpSock} :
    Respects SameIds (Tcp.modifySk (stackEnv netIn) id f) := by
  intro s u s' h
  obtain ⟨t, -, rfl⟩ := Tcp.Custody.modifySk_run h
  exact .refl s

lemma sameIds_pure (a : α) : Respects SameIds (pure a : Prog Stack α) := Respects.pure .refl a

lemma sameIds_bind (hx : Respects SameIds x) (hf : ∀ a, Respects SameIds (f a)) : Respects SameIds (x >>= f) :=
  Respects.bind (fun h h' => h.trans h') hx hf

lemma sameIds_tcpRoute {netIn : NetIn} : Respects SameIds (tcpRoute (stackEnv netIn) tsk daddr) := by
  have hseq : Sequential fun (α : Type) (x : Prog Stack α) => Respects SameIds x := ⟨sameIds_pure, sameIds_bind⟩
  apply Tcp.sequential_tcpRoute hseq
  · exact fun id _ => sameIds_getSk
  · intro s _ _ h
    cases h
    exact .refl s
  · exact fun id _ rt => sameIds_modifySk

lemma headed_tcpFill (hl : p.pkData.length = p.pkLen) (hn : p.pkLen = ETH_HRD_SZ + n)
    (hfit : IP_HRD_SZ + (tcpBytes out).length ≤ n) (id : ℤ) (rt : RtEntry) (saddr daddr : UInt32) :
    Headed (UInt16.ofInt id) n (tcpFill p id rt saddr daddr out) := by
  obtain ⟨he, hi⟩ := header_sizes
  have hout : 20 ≤ (tcpBytes out).length := by
    simp only [tcpBytes, storeInt, List.length_append, List.length_cons, List.length_nil]
    omega
  have hdata : ({ p with pkData := memcpy p.pkData (ETH_HRD_SZ + IP_HRD_SZ) (tcpBytes out) } :
      Pkbuf).pkData.length = ETH_HRD_SZ + n := by
    simp only
    rw [memcpy_length _ _ _ (by omega), hl, hn]
  have hge : IP_HRD_SZ ≤ n := by omega
  have hfill := @headed_ipFill _ _ (UInt16.ofInt id) hdata hge 0 TCP_DEFAULT_TTL IP_P_TCP.toUInt8 daddr
  simp only [tcpFill, show p.pkLen - ETH_HRD_SZ = n by omega]
  generalize ipFill _ 0 (UInt16.ofNat n) _ _ _ _ = q at hfill ⊢
  have hrt : Headed (UInt16.ofInt id) n { q with pkRtdst := some rt } := hfill.congr rfl
  exact (hrt.setIpSrc saddr).setShort _ (by omega) (by omega) _

lemma labelled_tcpFill (hp : Fits p out) (id : ℤ) (rt : RtEntry) (saddr daddr : UInt32) :
    Labelled (UInt16.ofInt id) (some (tcpFill p id rt saddr daddr out)) := by
  have hseg := hp.segment
  have hle := hp.le
  obtain ⟨n, hn⟩ := Nat.exists_eq_add_of_le (show ETH_HRD_SZ ≤ p.pkLen by omega)
  exact labelled_some (headed_tcpFill hp.length hn (by omega) id rt saddr daddr) (by omega)

lemma tcpPacket_inv {netIn : NetIn}
    {seg : Option TcpSegment} {s s' : Stack} (h : tcpPacket netIn tsk p out seg s = .ok (r, s')) (hp : Fits p out) :
    SameIds s s' ∧ Labelled (UInt16.ofInt s.tcp.tcpId) r := by
  have hroute : ∀ {s saddr daddr}, (do
      match ← tcpRoute (stackEnv netIn) tsk daddr with
      | none =>
        Stack.freePkb p
        return none
      | some rt => return some (tcpFill p (← get).tcp.tcpId rt saddr daddr out) : Prog Stack _) s = .ok (r, s') →
      SameIds s s' ∧ Labelled (UInt16.ofInt s.tcp.tcpId) r := by
    intro s saddr daddr h
    obtain ⟨found, s1, hfound, hend⟩ := bind_inv h
    have hids := sameIds_tcpRoute _ _ _ hfound
    cases found with
    | none =>
      obtain ⟨u, s2, hfree, hret⟩ := bind_inv hend
      cases hret
      exact ⟨hids.trans (sameIds_freePkb _ _ _ hfree), labelled_none⟩
    | some rt =>
      cases hend
      exact ⟨hids, by rw [← hids.2]; exact labelled_tcpFill hp _ _ _ _⟩
  cases seg with
  | some seg => exact hroute h
  | none =>
    cases tsk with
    | none => cases h
    | some id =>
      obtain ⟨t, s1, hget, hrest⟩ := bind_inv h
      obtain ⟨rfl, -⟩ := Tcp.Custody.getSk_run hget
      exact hroute hrest

lemma infoPacket_inv {tos : UInt8} {len : UInt16} {ttl pro : UInt8} {dst : UInt32} {s s' : Stack}
    (h : infoPacket p tos len ttl pro dst s = .ok (r, s')) (hp : p.pkData.length = ETH_HRD_SZ + len.toNat)
    (hn : IP_HRD_SZ ≤ len.toNat) :
    s' = { s with ipid := s.ipid + 1 } ∧ Labelled s.ipid r := by
  cases h
  refine ⟨rfl, labelled_some (n := len.toNat) ?_ ?_⟩
  · have hfill := @headed_ipFill _ _ s.ipid hp hn tos ttl pro dst
    rwa [UInt16.ofNat_toNat] at hfill
  · have := len.toNat_lt
    simp only [maxDatagram]
    omega

end Counters

end Tapip.Sockets.Senders
