import Tapip.Ip.Out
import Tapip.Tcp.In

/-! The way of an IP packet into the stack (ip/ip_in.c, ip/icmp.c, ip/raw.c, socket/raw_sock.c,
udp/udp.c, udp/udp_sock.c). -/

namespace Tapip.Ip.In

open Foundation.Bytes Foundation.Program Net Net.ByteOrder Net.Pkb Header Frag Out Lib.Checksum
open Tcp (ipdlen TcpEnv OutTcp tcpIn)

section Socks

def getInet (id : ℕ) : Prog Stack InetSock := fun s =>
  match s.socks[id]? with
  | some (some inet) => .ok (inet, s)
  | _ => .error .useAfterFree

def setInet (id : ℕ) (inet : Option InetSock) : Prog Stack Unit :=
  fun s => .ok ((), { s with socks := s.socks.set id inet })

def setRefcnt (n : ℤ) (inet : InetSock) : InetSock := { inet with sk := { inet.sk with refcnt := n } }

def getSock (id : ℕ) : Prog Stack Unit := do
  let inet ← getInet id
  setInet id (some (setRefcnt (inet.sk.refcnt + 1) inet))

def freeSock (id : ℕ) : Prog Stack Unit := do
  let inet ← getInet id
  if inet.sk.refcnt - 1 ≤ 0 then setInet id none
  else setInet id (some (setRefcnt (inet.sk.refcnt - 1) inet))

def recvQueueAdd (id : ℕ) (pkb : Pkbuf) : Prog Stack Unit := do
  let inet ← getInet id
  if inet.sk.recvWait then
    setInet id (some { inet with sk := { inet.sk with recvQueue := inet.sk.recvQueue ++ [pkb] } })
  else Tcp.fault .nullPointer

def rawMatch (pkb : Pkbuf) (inet : InetSock) : Bool :=
  inet.sk.protocol = ipPro pkb && (inet.sk.skSaddr = 0 || inet.sk.skSaddr = ipSrc pkb) &&
    (inet.sk.skDaddr = 0 || inet.sk.skDaddr = ipDst pkb)

def rawChain (pkb : Pkbuf) : List ℕ → Prog Stack Unit
  | [] => pure ()
  | id :: rest => do
    if rawMatch pkb (← getInet id) then
      recvQueueAdd id (← Stack.copyPkb pkb)
    rawChain pkb rest

def rawIn (pkb : Pkbuf) : Prog Stack Unit := fun s => rawChain pkb s.rawTable s

def udpChain (nport : UInt16) : List ℕ → Prog Stack (Option ℕ)
  | [] => pure none
  | id :: rest => do
    if (← getInet id).sk.skSport = nport then
      getSock id
      return some id
    else udpChain nport rest

def udpLookupSock (nport : UInt16) : Prog Stack (Option ℕ) := fun s => udpChain nport s.udpTable s

end Socks

section Upper

variable (netIn : NetIn)

def UDP_HRD_SZ : ℤ := 8

def ip2udp (pkb : Pkbuf) : ℕ := ETH_HRD_SZ + iphlen pkb

def udpLength (pkb : Pkbuf) : ℤ := (ntohs (loadShortAt pkb.pkData (ip2udp pkb + 4))).toNat

def udpChecksum (pkb : Pkbuf) : UInt16 := loadShortAt pkb.pkData (ip2udp pkb + 6)

def udpRecv (pkb : Pkbuf) : Prog Stack Unit := do
  match ← udpLookupSock (loadShortAt pkb.pkData (ip2udp pkb + 2)) with
  | none =>
    icmpSend netIn ICMP_T_DESTUNREACH ICMP_PORT_UNREACH 0 pkb
    Stack.freePkb pkb
  | some id =>
    -- the callback gets to see the packet, and the sock stays referenced
    if (← getInet id).rxCb then Stack.freePkb pkb
    else
      recvQueueAdd id pkb
      freeSock id

def udpIn (pkb : Pkbuf) : Prog Stack Unit :=
  let udplen := ipdlen pkb
  if udplen < UDP_HRD_SZ || udplen < udpLength pkb then Stack.freePkb pkb
  else
    let udplen := min udplen (udpLength pkb)
    if udpChecksum pkb != 0 && udpChksum (ipSrc pkb) (ipDst pkb) (UInt16.ofInt udplen)
        (slice pkb.pkData (ip2udp pkb) udplen.toNat) != 0 then Stack.freePkb pkb
    else udpRecv netIn pkb

def icmpEcho (pkb : Pkbuf) : Pkbuf :=
  let cksum := loadShortAt pkb.pkData (ip2icmp pkb + 2)
  let echo : UInt16 := ICMP_T_ECHOREQ.toUInt16
  let cksum := if cksum ≥ 0xffff - echo then cksum + (echo + 1) else cksum + echo
  let pkb := setShort (ip2icmp pkb + 2) (setByte (ip2icmp pkb) pkb ICMP_T_ECHORLY) cksum
  let pkb := ipHton (setIpDst pkb (ipSrc pkb))
  { pkb with pkRtdst := none, pkIndev := none, pkType := .none }

def icmpEchoRequest (pkb : Pkbuf) : Prog Stack Unit :=
  if pkb.pkData.getD (ip2icmp pkb + 1) 0 ≠ 0 then Stack.freePkb pkb
  else ipSendOut netIn (icmpEcho pkb)

-- Every other handler of `icmp_table` prints a line and drops the packet.
def icmpHandler (type : UInt8) (pkb : Pkbuf) : Prog Stack Unit :=
  if type = ICMP_T_ECHOREQ then icmpEchoRequest netIn pkb else Stack.freePkb pkb

def icmpIn (pkb : Pkbuf) : Prog Stack Unit :=
  let icmplen := ipdlen pkb
  -- the comparison with a `sizeof` is unsigned
  if 0 ≤ icmplen && icmplen < ICMP_HRD_SZ then Stack.freePkb pkb
  else if icmpChksum (slice pkb.pkData (ip2icmp pkb) icmplen.toNat) != 0 then Stack.freePkb pkb
  else if icmpType pkb > ICMP_T_MAXNUM then Stack.freePkb pkb
  else icmpHandler netIn (icmpType pkb) pkb

end Upper

section Tcp

def TCP_DEFAULT_TTL : UInt8 := 64

def tcpFlags (out : OutTcp) : UInt8 :=
  out.fin.toUInt8 ||| (out.syn.toUInt8 <<< 1) ||| (out.rst.toUInt8 <<< 2) |||
    (out.psh.toUInt8 <<< 3) ||| (out.ack.toUInt8 <<< 4)

def tcpBytes (out : OutTcp) : List UInt8 :=
  [out.src.toUInt8, (out.src >>> 8).toUInt8, out.dst.toUInt8, (out.dst >>> 8).toUInt8] ++
    storeInt (htonl out.seq) ++ storeInt (htonl out.ackn) ++ [0x50, tcpFlags out] ++
    [(htons out.window).toUInt8, (htons out.window >>> 8).toUInt8, 0, 0, 0, 0] ++ out.data

def tcpFill (pkb : Pkbuf) (tcpId : ℤ) (rt : RtEntry) (saddr daddr : UInt32) (out : OutTcp) : Pkbuf :=
  let len := pkb.pkLen - ETH_HRD_SZ
  let at0 := ETH_HRD_SZ + IP_HRD_SZ
  let pkb := { pkb with pkData := memcpy pkb.pkData at0 (tcpBytes out) }
  let pkb := ipFill pkb 0 (UInt16.ofNat len) (UInt16.ofInt tcpId) TCP_DEFAULT_TTL IP_P_TCP.toUInt8 daddr
  let pkb := setIpSrc { pkb with pkRtdst := some rt } saddr
  let tcplen := UInt16.ofInt ((UInt16.ofNat len).toNat - IP_HRD_SZ)
  setShort (at0 + 16) pkb (tcpChksum saddr daddr tcplen (slice pkb.pkData at0 tcplen.toNat))

def stackEnv (netIn : NetIn) : TcpEnv Stack where
  world := Stack.tcp
  setWorld w s := { s with tcp := w }
  allocPkb := Stack.allocPkb
  freePkb := Stack.freePkb
  getPkb := Stack.getPkb
  rtLookup daddr := fun s => .ok (rtLookup s.rtHead daddr, s)
  netMtu rt := do return (← Stack.getDev rt.rtDev).netMtu
  ipSendOut pkb rt saddr daddr out := fun s =>
    ipSendOut netIn (tcpFill pkb s.tcp.tcpId rt saddr daddr out) s

end Tcp

section In

variable (netIn : NetIn)

def passUp (pkb : Pkbuf) : Prog Stack Unit := do
  rawIn pkb
  if ipPro pkb = IP_P_ICMP then icmpIn netIn pkb
  else if ipPro pkb = IP_P_TCP.toUInt8 then tcpIn (stackEnv netIn) pkb
  else if ipPro pkb = IP_P_UDP.toUInt8 then udpIn netIn pkb
  else Stack.freePkb pkb

def isFragment (pkb : Pkbuf) : Bool := ipFragoff pkb &&& (IP_FRAG_OFF ||| IP_FRAG_MF) != 0

-- A packet put together is a new buffer.
def reassemble (pkb : Pkbuf) : Prog Stack (Option Pkbuf) := fun s =>
  let r := ipReass s.pkbs.next pkb s.fragHead
  (do
    if r.pkb.isSome then
      let _ ← Stack.countPkb
    (fun s => .ok ((), { s with fragHead := r.fragHead }) : Prog Stack Unit)
    r.freed.forM Stack.freePkb
    return r.pkb : Prog Stack (Option Pkbuf)) s

def ipRecvLocal (pkb : Pkbuf) : Prog Stack Unit :=
  if isFragment pkb then
    if ipFragoff pkb &&& IP_FRAG_DF != 0 then Stack.freePkb pkb
    else do
      match ← reassemble pkb with
      | none => pure ()
      | some pkb => passUp netIn pkb
  else passUp netIn pkb

def ipRecvRoute (pkb : Pkbuf) : Prog Stack Unit := do
  match ← rtInput netIn pkb with
  | none => pure ()
  | some pkb =>
    let rt ← rtdst pkb
    if isLocal rt then ipRecvLocal netIn pkb
    else ipForward netIn (ipHton pkb)

def IP_VERSION_4 : UInt8 := 4

-- The packet in host order and without padding; `none` is the jump to `err_free_pkb`.
def ipCheck (pkb : Pkbuf) : Option Pkbuf :=
  if pkb.pkType = .otherhost then none
  else if pkb.pkLen < ETH_HRD_SZ + IP_HRD_SZ then none
  else if ipVer pkb ≠ IP_VERSION_4 then none
  else if iphlen pkb < IP_HRD_SZ then none
  else if ipChksum (slice pkb.pkData ETH_HRD_SZ (iphlen pkb)) ≠ 0 then none
  else
    let hlen := iphlen pkb
    let pkb := ipNtoh pkb
    let len := (ipLen pkb).toNat
    if len < hlen || pkb.pkLen < ETH_HRD_SZ + len then none
    else some { pkb with pkLen := ETH_HRD_SZ + len, pkData := pkb.pkData.take (ETH_HRD_SZ + len) }

def ipIn (pkb : Pkbuf) : Prog Stack Unit :=
  match ipCheck pkb with
  | none => Stack.freePkb pkb
  | some pkb => ipRecvRoute netIn pkb

end In

end Tapip.Ip.In
