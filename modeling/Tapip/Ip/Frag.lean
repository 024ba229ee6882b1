import Tapip.Foundation.Tiling
import Tapip.Ip.Header
import Tapip.Lib.Checksum

/-! Fragmentation and reassembly (ip/ip_frag.c). -/

namespace Tapip.Ip.Frag

open Foundation.Bytes Net.ByteOrder Net.Pkb Header Lib.Checksum

structure Fragment where
  fragId : UInt16
  fragSrc : UInt32
  fragDst : UInt32
  fragPro : UInt16
  fragHlen : ℕ
  fragRsize : ℕ
  fragSize : ℕ
  fragTtl : ℤ
  fragComplete : Bool
  fragFirstIn : Bool
  fragLastIn : Bool
  fragPkb : List Pkbuf
deriving DecidableEq, Repr

def FRAG_TIME : ℤ := 30

def fullFrag (frag : Fragment) : Bool :=
  frag.fragFirstIn && frag.fragLastIn && frag.fragRsize == frag.fragSize

def newFrag (pkb : Pkbuf) : Fragment where
  fragId := ipId pkb
  fragSrc := ipSrc pkb
  fragDst := ipDst pkb
  fragPro := (ipPro pkb).toUInt16
  fragHlen := 0
  fragRsize := 0
  fragSize := 0
  fragTtl := FRAG_TIME
  fragComplete := false
  fragFirstIn := false
  fragLastIn := false
  fragPkb := []

def reassCopy (hlen : ℕ) : List Pkbuf → ℕ → List UInt8 → List UInt8
  | [], _, d => d
  | fragpkb :: pkbs, p, d =>
    let len := (ipLen fragpkb).toNat - hlen
    reassCopy hlen pkbs (p + len) (memcpy d p (slice fragpkb.pkData (ETH_HRD_SZ + hlen) len))

def reassFrag (addr : ℕ) (frag : Fragment) : Option Pkbuf :=
  let hlen := frag.fragHlen
  let len := frag.fragHlen + frag.fragSize
  if len > 65535 then none
  else match frag.fragPkb with
    | [] => none
    | fragpkb :: _ =>
      let pkb := allocPkb addr (ETH_HRD_SZ + len)
      let pkb := { pkb with
        pkPro := ETH_P_IP
        pkData := memcpy pkb.pkData 0 (slice fragpkb.pkData 0 (ETH_HRD_SZ + hlen)) }
      let pkb := setIpFragoff pkb 0
      let pkb := setIpLen pkb (UInt16.ofNat len)
      some { pkb with pkData := reassCopy hlen frag.fragPkb (ETH_HRD_SZ + hlen) pkb.pkData }

-- The walk goes backwards; `none` is a fragment with the same offset.
def fragPos (off : ℕ) : List Pkbuf → List Pkbuf → Option (List Pkbuf × List Pkbuf)
  | [], after => some ([], after)
  | fragpkb :: before, after =>
    if off = ipoff fragpkb then none
    else if off > ipoff fragpkb then some ((fragpkb :: before).reverse, after)
    else fragPos off before (fragpkb :: after)

def fragOut (pkb : Pkbuf) (frag : Fragment) : Fragment :=
  let frag := { frag with fragRsize := frag.fragRsize + ((ipLen pkb).toNat - iphlen pkb) }
  if fullFrag frag then { frag with fragComplete := true } else frag

def insertFrag (pkb : Pkbuf) (frag : Fragment) : Bool × Fragment :=
  if frag.fragComplete then (false, frag)
  else
    let off := ipoff pkb
    let hlen := iphlen pkb
    if !ipMF pkb then
      if frag.fragLastIn then (false, frag)
      else (true, fragOut pkb { frag with
        fragLastIn := true
        fragSize := off + (ipLen pkb).toNat - hlen
        fragPkb := frag.fragPkb ++ [pkb] })
    else match fragPos off frag.fragPkb.reverse [] with
      | none => (false, frag)
      | some (before, after) =>
        if frag.fragHlen != 0 && frag.fragHlen != hlen then (false, frag)
        else
          let frag := { frag with fragHlen := hlen }
          -- only the fragment in front of the new one is looked at
          if before.getLast?.any
              (fun q => decide ((ipoff q : ℤ) + (ipLen q).toNat - hlen > off)) then (false, frag)
          else (true, fragOut pkb { frag with
            fragFirstIn := frag.fragFirstIn || off == 0
            fragPkb := before ++ pkb :: after })

def fragMatch (pkb : Pkbuf) (frag : Fragment) : Bool :=
  frag.fragId == ipId pkb && frag.fragPro == (ipPro pkb).toUInt16 &&
    frag.fragSrc == ipSrc pkb && frag.fragDst == ipDst pkb

def lookupFrag (pkb : Pkbuf) (fragHead : List Fragment) : Option Fragment :=
  fragHead.find? (fragMatch pkb)

-- The queue for a fragment, with the queues in front of it and behind it; a new one comes first.
def fragSplit (pkb : Pkbuf) (fragHead : List Fragment) :
    List Fragment × Fragment × List Fragment :=
  match fragHead.dropWhile (fun f => !fragMatch pkb f) with
  | [] => ([], newFrag pkb, fragHead)
  | frag :: after => (fragHead.takeWhile (fun f => !fragMatch pkb f), frag, after)

structure Reass where
  pkb : Option Pkbuf
  fragHead : List Fragment
  freed : List Pkbuf
deriving DecidableEq, Repr

def ipReass (addr : ℕ) (pkb : Pkbuf) (fragHead : List Fragment) : Reass :=
  let (before, frag, after) := fragSplit pkb fragHead
  match insertFrag pkb frag with
  | (false, frag) => ⟨none, before ++ frag :: after, [pkb]⟩
  | (true, frag) =>
    if frag.fragComplete then ⟨reassFrag addr frag, before ++ after, frag.fragPkb⟩
    else ⟨none, before ++ frag :: after, []⟩

def ipSetChecksum (pkb : Pkbuf) : Pkbuf :=
  let pkb := setIpCksum pkb 0
  setIpCksum pkb (ipChksum (slice pkb.pkData ETH_HRD_SZ (iphlen pkb)))

def ipFrag (addr : ℕ) (pkb : Pkbuf) (hlen dlen off : ℕ) (mfBit : UInt16) : Pkbuf :=
  let fragpkb := allocPkb addr (ETH_HRD_SZ + hlen + dlen)
  let fragpkb := { fragpkb with
    pkPro := pkb.pkPro, pkType := pkb.pkType, pkIndev := pkb.pkIndev, pkRtdst := pkb.pkRtdst }
  let data := memcpy fragpkb.pkData ETH_HRD_SZ (slice pkb.pkData ETH_HRD_SZ hlen)
  let data := memcpy data (ETH_HRD_SZ + hlen) (slice pkb.pkData (ETH_HRD_SZ + hlen + off) dlen)
  let fragpkb := setIpLen { fragpkb with pkData := data } (htons (UInt16.ofNat (hlen + dlen)))
  let mfBit := mfBit ||| UInt16.ofNat (off >>> 3)
  ipSetChecksum (setIpFragoff fragpkb (htons mfBit))

-- Out of fuel is a loop that does not end: `mlen` is not positive.
def ipSendFragLoop (pkb : Pkbuf) (hlen : ℕ) (mlen : ℤ) :
    ℕ → ℕ → ℤ → ℕ → Option (List Pkbuf × ℤ × ℕ)
  | fuel, addr, dlen, off =>
    if dlen > mlen then
      match fuel with
      | 0 => none
      | fuel + 1 => do
        let fragpkb := ipFrag addr pkb hlen mlen.toNat off IP_FRAG_MF
        let (frags, dlen, off) ←
          ipSendFragLoop pkb hlen mlen fuel (addr + 1) (dlen - mlen) (off + mlen.toNat)
        return (fragpkb :: frags, dlen, off)
    else some ([], dlen, off)

def ipSendFrag (addr : ℕ) (netMtu : ℤ) (pkb : Pkbuf) : Option (List Pkbuf) := do
  let hlen := iphlen pkb
  let dlen : ℤ := (ntohs (ipLen pkb)).toNat - hlen
  let mlen : ℤ := (netMtu - hlen) / 8 * 8
  let (frags, dlen, off) ← ipSendFragLoop pkb hlen mlen dlen.toNat addr dlen 0
  if dlen != 0 then
    return frags ++
      [ipFrag (addr + frags.length) pkb hlen dlen.toNat off (ipFragoff pkb &&& IP_FRAG_MF)]
  else return frags

end Tapip.Ip.Frag
