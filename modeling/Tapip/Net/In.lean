import Tapip.Ip.In

/-! A frame that a driver passes to the stack (net/net.c, include/ether.h). -/

namespace Tapip.Net

open Foundation.Bytes Foundation.Program ByteOrder Pkb Arp Ip.In

def isEthMulticast (hwa : List UInt8) : Bool := hwa.getD 0 0 &&& 0x01 != 0

def isEthBroadcast (hwa : List UInt8) : Bool :=
  hwa.getD 0 0 &&& hwa.getD 1 0 &&& hwa.getD 2 0 &&& hwa.getD 3 0 &&& hwa.getD 4 0 &&& hwa.getD 5 0 == 0xff

def ethDst (pkb : Pkbuf) : List UInt8 := slice pkb.pkData 0 6

def ethType (nd : Netdev) (dst : List UInt8) : PktType :=
  if isEthMulticast dst then if isEthBroadcast dst then .broadcast else .multicast
  else if dst = nd.netHwaddr then .localhost
  else .otherhost

-- `none` is a frame that is too small.
def ethInit (nd : Netdev) (pkb : Pkbuf) : Option Pkbuf :=
  if pkb.pkLen < ETH_HRD_SZ then none
  else some { pkb with
    pkType := ethType nd (ethDst pkb)
    pkPro := ntohs (loadShortAt pkb.pkData 12) }

-- One frame; `netIn` is what the loopback device calls for a frame that is sent meanwhile.
def netInFrame (fuel : ℕ) (netIn : NetIn) (dev : ℕ) (pkb : Pkbuf) :
    Prog Stack Unit := do
  match ethInit (← Stack.getDev dev) pkb with
  | none => Stack.freePkb pkb
  | some pkb =>
    let pkb := { pkb with pkIndev := some dev }
    -- `rarp_in` is commented out
    if pkb.pkPro = ETH_P_RARP then pure ()
    else if pkb.pkPro = ETH_P_ARP then arpIn fuel netIn dev pkb
    else if pkb.pkPro = ETH_P_IP then ipIn netIn pkb
    else Stack.freePkb pkb

def netIn : ℕ → ℕ → Pkbuf → Prog Stack Unit
  | 0, _, _ => Tcp.fault .hang
  | fuel + 1, dev, pkb => netInFrame fuel (netIn fuel) dev pkb

/-- `netIn`, stopped at the first frame, sent over the loopback device or not, that is not `ok`. -/
def netInWhere (ok : Stack → ℕ → Pkbuf → Bool) : ℕ → ℕ → Pkbuf → Prog Stack Unit
  | 0, _, _ => Tcp.fault .hang
  | fuel + 1, dev, pkb => fun s =>
    if ok s dev pkb then netInFrame fuel (netInWhere ok fuel) dev pkb s else .error .assertion

end Tapip.Net
