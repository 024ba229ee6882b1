import Tapip.Net.Stack

/-! The ARP cache and ARP packets (arp/arp_cache.c, arp/arp.c). -/

namespace Tapip.Net.Arp

open Foundation.Bytes Foundation.Program ByteOrder Pkb Ip.Header

def ARP_CACHE_SZ : ℕ := 20
def ARP_TIMEOUT : ℤ := 600
def ARP_WAITTIME : ℤ := 1
def ARP_REQ_RETRY : ℤ := 4
def ARP_HRD_SZ : ℕ := 28
def ARP_HRD_ETHER : UInt16 := 1
def ARP_OP_REQUEST : UInt16 := 1
def ARP_OP_REPLY : UInt16 := 2
def ETH_ALEN : UInt8 := 6
def IP_ALEN : UInt8 := 4
def BRD_HWADDR : List UInt8 := [0xff, 0xff, 0xff, 0xff, 0xff, 0xff]

section Cache

def getAe (i : ℕ) : Prog Stack ArpEntry := fun s =>
  match s.arpCache[i]? with
  | none => .error .nullPointer
  | some ae => .ok (ae, s)

def modifyAe (i : ℕ) (f : ArpEntry → ArpEntry) : Prog Stack Unit :=
  fun s => .ok ((), { s with arpCache := s.arpCache.modify i f })

def arpNextFree (arpCache : List ArpEntry) : ℕ → ℕ → Option ℕ
  | 0, _ => none
  | turns + 1, next =>
    if arpCache[next]?.any (fun ae => ae.aeState = .free) then some next
    else arpNextFree arpCache turns ((next + 1) % ARP_CACHE_SZ)

def arpInit (ae : ArpEntry) : ArpEntry :=
  { ae with
    aeDev := none
    aeRetry := ARP_REQ_RETRY
    aeTtl := ARP_WAITTIME
    aeState := .waiting
    aePro := ETH_P_IP
    aeList := [] }

def arpAlloc : Prog Stack (Option ℕ) := fun s =>
  match arpNextFree s.arpCache ARP_CACHE_SZ s.arpNext with
  | none => .ok (none, s)
  | some i => .ok (some i, { s with
      arpCache := s.arpCache.modify i arpInit, arpNext := (i + 1) % ARP_CACHE_SZ })

def arpInsert (nd : ℕ) (pro : UInt16) (ipaddr : UInt32) (hwaddr : List UInt8) : Prog Stack Unit := do
  match ← arpAlloc with
  | none => pure ()
  | some i => modifyAe i (fun ae => { ae with
      aeDev := some nd, aePro := pro, aeTtl := ARP_TIMEOUT, aeIpaddr := ipaddr
      aeState := .resolved, aeHwaddr := hwaddr })

def arpLookup (pro : UInt16) (ipaddr : UInt32) : Prog Stack (Option ℕ) := fun s =>
  .ok (s.arpCache.findIdx? (fun ae =>
    ae.aeState ≠ .free && ae.aePro = pro && ae.aeIpaddr = ipaddr), s)

end Cache

section Packet

def arpHrd (pkb : Pkbuf) : UInt16 := loadShortAt pkb.pkData 14
def arpPro (pkb : Pkbuf) : UInt16 := loadShortAt pkb.pkData 16
def arpHrdlen (pkb : Pkbuf) : UInt8 := pkb.pkData.getD 18 0
def arpProlen (pkb : Pkbuf) : UInt8 := pkb.pkData.getD 19 0
def arpOp (pkb : Pkbuf) : UInt16 := loadShortAt pkb.pkData 20
def arpSha (pkb : Pkbuf) : List UInt8 := slice pkb.pkData 22 6
def arpSip (pkb : Pkbuf) : UInt32 := loadIntAt pkb.pkData 28
def arpTip (pkb : Pkbuf) : UInt32 := loadIntAt pkb.pkData 38
def ethSrc (pkb : Pkbuf) : List UInt8 := slice pkb.pkData 6 6

def arpHton (pkb : Pkbuf) : Pkbuf :=
  let pkb := setShort 14 pkb (htons (arpHrd pkb))
  let pkb := setShort 16 pkb (htons (arpPro pkb))
  setShort 20 pkb (htons (arpOp pkb))

abbrev arpNtoh := arpHton

def arpAnswer (nd : Netdev) (pkb : Pkbuf) : Pkbuf :=
  let data := storeShortAt pkb.pkData 20 ARP_OP_REPLY
  let data := memcpy data 32 (arpSha pkb)
  let data := memcpy data 38 (storeInt (arpSip pkb))
  let data := memcpy data 22 nd.netHwaddr
  let data := memcpy data 28 (storeInt nd.netIpaddr)
  arpNtoh { pkb with pkData := data }

def arpQuestion (nd : Netdev) (ae : ArpEntry) (pkb : Pkbuf) : Pkbuf :=
  let data := storeShortAt pkb.pkData 14 (htons ARP_HRD_ETHER)
  let data := storeShortAt data 16 (htons ETH_P_IP)
  let data := memcpy data 18 [ETH_ALEN, IP_ALEN]
  let data := storeShortAt data 20 (htons ARP_OP_REQUEST)
  let data := memcpy data 22 nd.netHwaddr
  let data := memcpy data 28 (storeInt nd.netIpaddr)
  let data := memcpy data 32 BRD_HWADDR
  { pkb with pkData := memcpy data 38 (storeInt ae.aeIpaddr) }

end Packet

def multicast (netip : UInt32) : Bool := (0x000000f0 : UInt32) &&& netip == 0x000000e0

section Arp

variable (fuel : ℕ) (netIn : NetIn)

def aeDevice (ae : ArpEntry) : Prog Stack ℕ :=
  match ae.aeDev with
  | none => Tcp.fault .nullPointer
  | some dev => pure dev

def arpRequest (i : ℕ) : Prog Stack Unit := do
  let pkb ← Stack.allocPkb (ETH_HRD_SZ + ARP_HRD_SZ)
  let ae ← getAe i
  let dev ← aeDevice ae
  let nd ← Stack.getDev dev
  netdevTx netIn dev (arpQuestion nd ae pkb) (pkb.pkLen - ETH_HRD_SZ) ETH_P_ARP BRD_HWADDR

-- Sending over the loopback device can put the buffer back at the end of the queue.
def arpQueueSend (i : ℕ) : ℕ → Prog Stack Unit
  | 0 => Tcp.fault .hang
  | fuel + 1 => do
    let ae ← getAe i
    match ae.aeList with
    | [] => pure ()
    | pkb :: rest =>
      modifyAe i (fun ae => { ae with aeList := rest })
      netdevTx netIn (← aeDevice ae) pkb (pkb.pkLen - ETH_HRD_SZ) pkb.pkPro ae.aeHwaddr
      arpQueueSend i fuel

def arpReply (dev : ℕ) (pkb : Pkbuf) : Prog Stack Unit := do
  let nd ← Stack.getDev dev
  netdevTx netIn dev (arpAnswer nd pkb) ARP_HRD_SZ ETH_P_ARP (ethSrc pkb)

def arpLearn (dev : ℕ) (pkb : Pkbuf) : Prog Stack Unit := do
  match ← arpLookup (arpPro pkb) (arpSip pkb) with
  | some i =>
    modifyAe i (fun ae => { ae with aeHwaddr := arpSha pkb })
    if (← getAe i).aeState = .waiting then arpQueueSend netIn i fuel
    modifyAe i (fun ae => { ae with aeState := .resolved, aeTtl := ARP_TIMEOUT })
  | none =>
    if arpOp pkb = ARP_OP_REQUEST then arpInsert dev (arpPro pkb) (arpSip pkb) (arpSha pkb)

def arpRecv (dev : ℕ) (pkb : Pkbuf) : Prog Stack Unit := do
  let nd ← Stack.getDev dev
  if multicast (arpTip pkb) then Stack.freePkb pkb
  else if arpTip pkb ≠ nd.netIpaddr then Stack.freePkb pkb
  else
    arpLearn fuel netIn dev pkb
    if arpOp pkb = ARP_OP_REQUEST then arpReply netIn dev pkb
    else Stack.freePkb pkb

def arpIn (dev : ℕ) (pkb : Pkbuf) : Prog Stack Unit :=
  if pkb.pkType = .otherhost then Stack.freePkb pkb
  else if pkb.pkLen < ETH_HRD_SZ + ARP_HRD_SZ then Stack.freePkb pkb
  else if arpSha pkb ≠ ethSrc pkb then Stack.freePkb pkb
  else
    let pkb := arpHton pkb
    if arpHrd pkb ≠ ARP_HRD_ETHER || arpPro pkb ≠ ETH_P_IP || arpHrdlen pkb ≠ ETH_ALEN ||
        arpProlen pkb ≠ IP_ALEN then Stack.freePkb pkb
    else if arpOp pkb ≠ ARP_OP_REQUEST && arpOp pkb ≠ ARP_OP_REPLY then Stack.freePkb pkb
    else arpRecv fuel netIn dev pkb

end Arp

section Timer

variable (netIn : NetIn)

def arpQueueDrop (i : ℕ) : Prog Stack Unit := do
  let ae ← getAe i
  ae.aeList.forM fun pkb => do
    modifyAe i (fun ae => { ae with aeList := ae.aeList.tail })
    Stack.freePkb pkb

def arpTimerEntry (delta : ℤ) (i : ℕ) : Prog Stack Unit := do
  let ae ← getAe i
  if ae.aeState = .free then pure ()
  else
    modifyAe i (fun ae => { ae with aeTtl := ae.aeTtl - delta })
    if ae.aeTtl - delta ≤ 0 then
      if ae.aeState = .waiting then
        modifyAe i (fun ae => { ae with aeRetry := ae.aeRetry - 1 })
        if ae.aeRetry - 1 < 0 then
          arpQueueDrop i
          modifyAe i (fun ae => { ae with aeState := .free })
        else
          modifyAe i (fun ae => { ae with aeTtl := ARP_WAITTIME })
          arpRequest netIn i
      else modifyAe i (fun ae => { ae with aeState := .free })

def arpTimer (delta : ℤ) : Prog Stack Unit := (List.range ARP_CACHE_SZ).forM (arpTimerEntry netIn delta)

def arpCacheInit : Prog Stack Unit := fun s =>
  .ok ((), { s with arpCache := s.arpCache.map fun ae => { ae with aeState := .free } })

end Timer

end Tapip.Net.Arp
