import Tapip.Ip.Header
import Tapip.Lib.Checksum
import Tapip.Tcp.State

/-! A TCP segment on its way from the IP layer to its sock (tcp/tcp_in.c, tcp/tcp_sock.c). -/

namespace Tapip.Tcp

open Foundation.Bytes Foundation.Program Net.ByteOrder Net.Pkb Ip.Header Lib.Checksum

def TCP_HRD_SZ : ℤ := 20

def ip2tcp (pkb : Pkbuf) : ℕ := ETH_HRD_SZ + iphlen pkb

def ipdlen (pkb : Pkbuf) : ℤ := (ipLen pkb).toNat - iphlen pkb

def tcphlen (pkb : Pkbuf) : ℕ := (pkb.pkData.getD (ip2tcp pkb + 12) 0 >>> 4).toNat <<< 2

def tcpBit (pkb : Pkbuf) (bit : UInt8) : Bool := pkb.pkData.getD (ip2tcp pkb + 13) 0 &&& bit != 0

def tcpSegmentInit (pkb : Pkbuf) : TcpSegment :=
  let seq := ntohl (loadIntAt pkb.pkData (ip2tcp pkb + 4))
  let dlen := UInt32.ofInt (ipdlen pkb - tcphlen pkb)
  let len := dlen + (tcpBit pkb 0x02).toUInt32 + (tcpBit pkb 0x01).toUInt32
  { seq := seq
    ack := if tcpBit pkb 0x10 then ntohl (loadIntAt pkb.pkData (ip2tcp pkb + 8)) else 0
    lastseq := if len ≠ 0 then seq + len - 1 else seq
    len := len
    dlen := dlen
    wnd := (ntohs (loadShortAt pkb.pkData (ip2tcp pkb + 14))).toUInt32
    text := pkb.pkData.drop (ip2tcp pkb + tcphlen pkb)
    iphdrSrc := ipSrc pkb
    iphdrDst := ipDst pkb
    tcphdrSrc := loadShortAt pkb.pkData (ip2tcp pkb)
    tcphdrDst := loadShortAt pkb.pkData (ip2tcp pkb + 2)
    fin := tcpBit pkb 0x01
    syn := tcpBit pkb 0x02
    rst := tcpBit pkb 0x04
    psh := tcpBit pkb 0x08
    ackBit := tcpBit pkb 0x10 }

section In

variable {σ : Type} (env : TcpEnv σ)

def lookupChain (isMatch : TcpSock → Bool) : List ℕ → Prog σ (Option ℕ)
  | [] => pure none
  | id :: rest => do
    if isMatch (← getSk env id) then
      getSock env id
      return some id
    else lookupChain isMatch rest

def tcpLookupSockEstablish (src dst : UInt32) (srcPort dstPort : UInt16) : Prog σ (Option ℕ) := do
  lookupChain env (fun t => t.sk.skSaddr = dst && t.sk.skDaddr = src &&
    t.sk.skSport = dstPort && t.sk.skDport = srcPort) (← getWorld env).etable

def tcpLookupSockListen (addr : UInt32) (nport : UInt16) : Prog σ (Option ℕ) := do
  lookupChain env (fun t => (t.sk.skSaddr = 0 || t.sk.skSaddr = addr) && t.sk.skSport = nport)
    (← getWorld env).ltable

def tcpLookupSock (src dst : UInt32) (srcPort dstPort : UInt16) : Prog σ (Option ℕ) := do
  match ← tcpLookupSockEstablish env src dst srcPort dstPort with
  | some id => return some id
  | none => tcpLookupSockListen env dst dstPort

def tcpRecv (pkb : Pkbuf) (seg : TcpSegment) : Prog σ Unit := do
  let sk ← tcpLookupSock env seg.iphdrSrc seg.iphdrDst seg.tcphdrSrc seg.tcphdrDst
  tcpProcess env pkb seg sk
  if let some id := sk then freeSock env id

def tcpIn (pkb : Pkbuf) : Prog σ Unit :=
  let tcplen := ipdlen pkb
  if tcplen < TCP_HRD_SZ || tcplen < tcphlen pkb then env.freePkb pkb
  else if tcpChksum (ipSrc pkb) (ipDst pkb) (UInt16.ofInt tcplen)
      (slice pkb.pkData (ip2tcp pkb) tcplen.toNat) != 0 then env.freePkb pkb
  else tcpRecv env pkb (tcpSegmentInit pkb)

end In

end Tapip.Tcp
