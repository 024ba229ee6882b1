import Tapip.Net.Arp

/-! The way of an IP packet out of the stack (ip/route.c, ip/ip_out.c, the sending half of
ip/ip_frag.c, icmp_send of ip/icmp.c). -/

namespace Tapip.Ip.Out

open Foundation.Bytes Foundation.Program Net Net.ByteOrder Net.Pkb Net.Arp Header Frag Lib.Checksum

def RT_LOCALHOST : UInt32 := 1
def RT_DEFAULT : UInt32 := 2

def rtLookup (rtHead : List RtEntry) (ipaddr : UInt32) : Option RtEntry :=
  rtHead.find? (fun rt => rt.rtNetmask &&& ipaddr == rt.rtNetmask &&& rt.rtNet)

def isLocal (rt : RtEntry) : Bool := rt.rtFlags &&& RT_LOCALHOST != 0

def nextHop (rt : RtEntry) (dst : UInt32) : UInt32 :=
  if rt.rtFlags &&& RT_DEFAULT != 0 || decide (rt.rtMetric > 0) then rt.rtGw else dst

def rtdst (pkb : Pkbuf) : Prog Stack RtEntry :=
  match pkb.pkRtdst with
  | none => Tcp.fault .nullPointer
  | some rt => pure rt

def setInt (i : ℕ) (pkb : Pkbuf) (v : UInt32) : Pkbuf :=
  { pkb with pkData := memcpy pkb.pkData i (storeInt v) }

def setByte (i : ℕ) (pkb : Pkbuf) (v : UInt8) : Pkbuf :=
  { pkb with pkData := memcpy pkb.pkData i [v] }

def setIpSrc (pkb : Pkbuf) (v : UInt32) : Pkbuf := setInt 26 pkb v
def setIpDst (pkb : Pkbuf) (v : UInt32) : Pkbuf := setInt 30 pkb v

def ipFill (pkb : Pkbuf) (tos : UInt8) (len id : UInt16) (ttl pro : UInt8) (dst : UInt32) : Pkbuf :=
  let pkb := setByte 15 (setByte 14 pkb 0x45) tos
  let pkb := setIpFragoff (setIpId (setIpLen pkb (htons len)) (htons id)) 0
  setIpDst (setByte 23 (setByte 22 pkb ttl) pro) dst

section Send

variable (netIn : NetIn)

def arpWait (dev : ℕ) (dst : UInt32) (pkb : Pkbuf) : Prog Stack Unit := do
  match ← arpAlloc with
  | none => Stack.freePkb pkb
  | some i =>
    modifyAe i (fun ae => { ae with aeIpaddr := dst, aeDev := some dev, aeList := ae.aeList ++ [pkb] })
    arpRequest netIn i

def ipSendDev (dev : ℕ) (pkb : Pkbuf) : Prog Stack Unit := do
  let rt ← rtdst pkb
  if isLocal rt then
    netdevTx netIn dev pkb (pkb.pkLen - ETH_HRD_SZ) ETH_P_IP (← Stack.getDev dev).netHwaddr
  else
    let dst := nextHop rt (ipDst pkb)
    match ← arpLookup ETH_P_IP dst with
    | none => arpWait netIn dev dst pkb
    | some i =>
      let ae ← getAe i
      if ae.aeState = .waiting then modifyAe i (fun ae => { ae with aeList := ae.aeList ++ [pkb] })
      else netdevTx netIn dev pkb (pkb.pkLen - ETH_HRD_SZ) ETH_P_IP ae.aeHwaddr

def sendFrags (dev : ℕ) : List Pkbuf → Prog Stack Unit
  | [] => pure ()
  | fragpkb :: frags => do
    let pkb ← Stack.allocPkb fragpkb.pkLen
    ipSendDev netIn dev { fragpkb with pkAddr := pkb.pkAddr }
    sendFrags dev frags

def ipSendFrag (dev : ℕ) (pkb : Pkbuf) : Prog Stack Unit := do
  match Frag.ipSendFrag 0 (← Stack.getDev dev).netMtu pkb with
  | none => Tcp.fault .hang
  | some frags =>
    sendFrags netIn dev frags
    Stack.freePkb pkb

def ipSendRoute (dev : ℕ) (pkb : Pkbuf) : Prog Stack Unit := do
  let nd ← Stack.getDev dev
  if ((ntohs (ipLen pkb)).toNat : ℤ) > nd.netMtu then ipSendFrag netIn dev pkb
  else ipSendDev netIn dev pkb

def rtOutput (pkb : Pkbuf) : Prog Stack (Option Pkbuf) := fun s =>
  match rtLookup s.rtHead (ipDst pkb) with
  | none => .ok (none, s)
  | some rt =>
    match s.netDevices[rt.rtDev]? with
    | none => .error .nullPointer
    | some nd => .ok (some (setIpSrc { pkb with pkRtdst := some rt } nd.netIpaddr), s)

def ipSendOut (pkb : Pkbuf) : Prog Stack Unit := do
  let pkb := { pkb with pkPro := ETH_P_IP }
  let routed ← if pkb.pkRtdst.isSome then pure (some pkb) else rtOutput pkb
  match routed with
  | none => Stack.freePkb pkb
  | some pkb =>
    let pkb := ipSetChecksum pkb
    let rt ← rtdst pkb
    ipSendRoute netIn rt.rtDev pkb

def nextIpid : Prog Stack UInt16 := fun s => .ok (s.ipid, { s with ipid := s.ipid + 1 })

def ipSendInfo (pkb : Pkbuf) (tos : UInt8) (len : UInt16) (ttl pro : UInt8) (dst : UInt32) :
    Prog Stack Unit := do
  ipSendOut netIn (ipFill pkb tos len (← nextIpid) ttl pro dst)

end Send

section Icmp

def ICMP_HRD_SZ : ℕ := 8
def ICMP_T_ECHORLY : UInt8 := 0
def ICMP_T_DESTUNREACH : UInt8 := 3
def ICMP_T_REDIRECT : UInt8 := 5
def ICMP_T_ECHOREQ : UInt8 := 8
def ICMP_T_TIMEEXCEED : UInt8 := 11
def ICMP_T_MAXNUM : UInt8 := 18
def ICMP_NET_UNREACH : UInt8 := 0
def ICMP_PORT_UNREACH : UInt8 := 3
def ICMP_FRAG_NEEDED : UInt8 := 4
def ICMP_REDIRECT_HOST : UInt8 := 1
def ICMP_EXC_TTL : UInt8 := 0
def IP_P_ICMP : UInt8 := 1

def icmpTypeError (type : UInt8) : Bool :=
  type ∈ ([1, 2, 3, 4, 5, 6, 7, 9, 10, 11, 12] : List UInt8)

def ip2icmp (pkb : Pkbuf) : ℕ := ETH_HRD_SZ + iphlen pkb

def icmpType (pkb : Pkbuf) : UInt8 := pkb.pkData.getD (ip2icmp pkb) 0

def broadcast (netip : UInt32) : Bool :=
  (0xff000000 : UInt32) &&& netip == 0xff000000 || (0xff000000 : UInt32) &&& netip == 0

def icmpAllowed (type : UInt8) (pkbIn : Pkbuf) : Bool :=
  !decide ((ntohs (ipLen pkbIn)).toNat < iphlen pkbIn + 8) &&
  pkbIn.pkType = .localhost &&
  !(multicast (ipDst pkbIn) || broadcast (ipDst pkbIn)) &&
  ipFragoff pkbIn &&& htons IP_FRAG_OFF == 0 &&
  !(icmpTypeError type && ipPro pkbIn == IP_P_ICMP &&
    (decide (icmpType pkbIn > ICMP_T_MAXNUM) || icmpTypeError (icmpType pkbIn)))

def icmpPaylen (pkbIn : Pkbuf) : ℕ := min (ntohs (ipLen pkbIn)).toNat (576 - IP_HRD_SZ - ICMP_HRD_SZ)

-- Bytes behind the end of the received packet are read as zero.
def icmpFill (pkb : Pkbuf) (type code : UInt8) (data : UInt32) (pkbIn : Pkbuf) : Pkbuf :=
  let paylen := icmpPaylen pkbIn
  let body := slice pkbIn.pkData ETH_HRD_SZ paylen
  let body := body ++ List.replicate (paylen - body.length) 0
  let at0 := ETH_HRD_SZ + IP_HRD_SZ
  let d := memcpy pkb.pkData at0 ([type, code, 0, 0] ++ storeInt data ++ body)
  { pkb with pkData := storeShortAt d (at0 + 2) (icmpChksum (slice d at0 (ICMP_HRD_SZ + paylen))) }

variable (netIn : NetIn)

def icmpSend (type code : UInt8) (data : UInt32) (pkbIn : Pkbuf) : Prog Stack Unit :=
  if icmpAllowed type pkbIn then do
    let len := IP_HRD_SZ + ICMP_HRD_SZ + icmpPaylen pkbIn
    let pkb ← Stack.allocPkb (ETH_HRD_SZ + len)
    ipSendInfo netIn (icmpFill pkb type code data pkbIn) 0 (UInt16.ofNat len) 0 IP_P_ICMP (ipSrc pkbIn)
  else pure ()

end Icmp

section Route

variable (netIn : NetIn)

-- The packet is in host order; without a route it is dropped.
def rtInput (pkb : Pkbuf) : Prog Stack (Option Pkbuf) := fun s =>
  match rtLookup s.rtHead (ipDst pkb) with
  | none => (do
      let pkb := ipHton pkb
      icmpSend netIn ICMP_T_DESTUNREACH ICMP_NET_UNREACH 0 pkb
      Stack.freePkb pkb
      return none : Prog Stack (Option Pkbuf)) s
  | some rt => .ok (some { pkb with pkRtdst := some rt }, s)

def ipRedirect (rt : RtEntry) (pkb : Pkbuf) : Prog Stack Unit := fun s =>
  let dst := nextHop rt (ipDst pkb)
  if pkb.pkIndev = some rt.rtDev && (rtLookup s.rtHead (ipSrc pkb)).any (fun srt =>
      srt.rtMetric = 0 && srt.rtNetmask &&& ipSrc pkb == srt.rtNetmask &&& dst) then
    icmpSend netIn ICMP_T_REDIRECT ICMP_REDIRECT_HOST dst pkb s
  else .ok ((), s)

def ipForward (pkb : Pkbuf) : Prog Stack Unit := do
  let rt ← rtdst pkb
  if ipTtl pkb ≤ 1 then
    icmpSend netIn ICMP_T_TIMEEXCEED ICMP_EXC_TTL 0 pkb
    Stack.freePkb pkb
  else
    let pkb := ipSetChecksum (setByte 22 pkb (ipTtl pkb - 1))
    ipRedirect netIn rt pkb
    let nd ← Stack.getDev rt.rtDev
    if ((ntohs (ipLen pkb)).toNat : ℤ) > nd.netMtu then
      if ipFragoff pkb &&& htons IP_FRAG_DF != 0 then
        icmpSend netIn ICMP_T_DESTUNREACH ICMP_FRAG_NEEDED 0 pkb
        Stack.freePkb pkb
      else ipSendFrag netIn rt.rtDev pkb
    else ipSendDev netIn rt.rtDev pkb

end Route

end Tapip.Ip.Out
