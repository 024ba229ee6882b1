import Tapip.Ip.In

/-! What ICMP errors quote, at each place that calls `icmp_send` (ip/icmp.c, ip/ip_forward.c,
ip/route.c, udp/udp.c, the timer of ip/ip_frag.c). -/

namespace Tapip.Ip.Quote

open Foundation.Bytes Foundation.Program Net Net.ByteOrder Net.Pkb Header Frag Out In

variable {s' : Stack} {frag : Fragment} {addr i : ℕ}

def ICMP_EXC_FRAGTIME : UInt8 := 1

section Timer

variable (netIn : NetIn)

def deleteFrag (frag : Fragment) : Prog Stack Unit := frag.fragPkb.forM Stack.freePkb

def ipTimerLoop (delta : ℤ) : List Fragment → Prog Stack (List Fragment)
  | [] => pure []
  | frag :: rest =>
    if fullFrag frag then return frag :: (← ipTimerLoop delta rest)
    else
      let frag := { frag with fragTtl := frag.fragTtl - delta }
      if frag.fragTtl ≤ 0 then
        match frag.fragPkb with
        | [] => Tcp.fault .nullPointer
        | pkb :: _ => do
          icmpSend netIn ICMP_T_TIMEEXCEED ICMP_EXC_FRAGTIME 0 (ipHton pkb)
          deleteFrag frag
          ipTimerLoop delta rest
      else return frag :: (← ipTimerLoop delta rest)

def ipTimer (delta : ℤ) : Prog Stack Unit := fun s => (do
  let fragHead ← ipTimerLoop netIn delta s.fragHead
  (fun s => .ok ((), { s with fragHead := fragHead }) : Prog Stack Unit) : Prog Stack Unit) s

end Timer

inductive Place
  | ttlExceeded
  | fragNeeded
  | redirect
  | netUnreach
  | portUnreach
  | fragTime
deriving DecidableEq, Repr

def Place.type : Place → UInt8
  | .ttlExceeded | .fragTime => ICMP_T_TIMEEXCEED
  | .fragNeeded | .netUnreach | .portUnreach => ICMP_T_DESTUNREACH
  | .redirect => ICMP_T_REDIRECT

def Place.code : Place → UInt8
  | .ttlExceeded => ICMP_EXC_TTL
  | .fragNeeded => ICMP_FRAG_NEEDED
  | .redirect => ICMP_REDIRECT_HOST
  | .netUnreach => ICMP_NET_UNREACH
  | .portUnreach => ICMP_PORT_UNREACH
  | .fragTime => ICMP_EXC_FRAGTIME

def routed (rt : RtEntry) (pkb : Pkbuf) : Pkbuf := { pkb with pkRtdst := some rt }

def aged (pkb : Pkbuf) : Pkbuf := ipSetChecksum (setByte 22 pkb (ipTtl pkb - 1))

inductive Calls (pkb : Pkbuf) : Place → Pkbuf → Prop
  | netUnreach {p : Pkbuf} : ipCheck pkb = some p → Calls pkb .netUnreach (ipHton p)
  | ttlExceeded {p : Pkbuf} (rt : RtEntry) : ipCheck pkb = some p →
      Calls pkb .ttlExceeded (ipHton (routed rt p))
  | redirect {p : Pkbuf} (rt : RtEntry) : ipCheck pkb = some p →
      Calls pkb .redirect (aged (ipHton (routed rt p)))
  | fragNeeded {p : Pkbuf} (rt : RtEntry) : ipCheck pkb = some p →
      Calls pkb .fragNeeded (aged (ipHton (routed rt p)))
  | portUnreach {p : Pkbuf} (rt : RtEntry) : ipCheck pkb = some p → isFragment p = false →
      Calls pkb .portUnreach (routed rt p)
  | fragTime {p : Pkbuf} (rt : RtEntry) : ipCheck pkb = some p →
      Calls pkb .fragTime (ipHton (routed rt p))

variable {p : Pkbuf}

section Places

variable (netIn : NetIn) {s : Stack}

def sendAt (place : Place) (data : UInt32) (q : Pkbuf) : Prog Stack Unit :=
  icmpSend netIn place.type place.code data q

lemma rtInput_netUnreach (h : rtLookup s.rtHead (ipDst p) = none) : rtInput netIn p s = (do
      sendAt netIn .netUnreach 0 (ipHton p)
      Stack.freePkb (ipHton p)
      return none : Prog Stack (Option Pkbuf)) s := by
  simp only [rtInput, h]
  rfl

lemma ipForward_ttlExceeded (rt : RtEntry) (h : ipTtl (ipHton (routed rt p)) ≤ 1) :
    ipForward netIn (ipHton (routed rt p)) = (do
      sendAt netIn .ttlExceeded 0 (ipHton (routed rt p))
      Stack.freePkb (ipHton (routed rt p)) : Prog Stack Unit) := by
  simp only [ipForward, h, if_true]
  rfl

lemma ipForward_aged (rt : RtEntry) (h : ¬ipTtl (ipHton (routed rt p)) ≤ 1) :
    ipForward netIn (ipHton (routed rt p)) = (do
      ipRedirect netIn rt (aged (ipHton (routed rt p)))
      let nd ← Stack.getDev rt.rtDev
      if ((ntohs (ipLen (aged (ipHton (routed rt p))))).toNat : ℤ) > nd.netMtu then
        if ipFragoff (aged (ipHton (routed rt p))) &&& htons IP_FRAG_DF != 0 then
          sendAt netIn .fragNeeded 0 (aged (ipHton (routed rt p)))
          Stack.freePkb (aged (ipHton (routed rt p)))
        else Out.ipSendFrag netIn rt.rtDev (aged (ipHton (routed rt p)))
      else ipSendDev netIn rt.rtDev (aged (ipHton (routed rt p))) : Prog Stack Unit) := by
  simp only [ipForward, h, if_false]
  rfl

lemma ipRedirect_redirect (rt : RtEntry) : ipRedirect netIn rt (aged (ipHton (routed rt p))) s =
    .ok ((), s) ∨ ∃ data, ipRedirect netIn rt (aged (ipHton (routed rt p))) s =
      sendAt netIn .redirect data (aged (ipHton (routed rt p))) s := by
  simp only [ipRedirect]
  split_ifs
  · exact .inr ⟨_, rfl⟩
  · exact .inl rfl

lemma udpRecv_portUnreach (h : udpLookupSock (loadShortAt p.pkData (ip2udp p + 2)) s = .ok (none, s')) :
    udpRecv netIn p s = (do
      sendAt netIn .portUnreach 0 p
      Stack.freePkb p : Prog Stack Unit) s' := by
  rw [udpRecv, bind_run h]
  rfl

lemma ipTimerLoop_fragTime {delta : ℤ} {rest : List Fragment} {pkbs : List Pkbuf}
    (hfull : fullFrag frag = false) (httl : frag.fragTtl - delta ≤ 0) (hp : frag.fragPkb = p :: pkbs) :
    ipTimerLoop netIn delta (frag :: rest) = (do
      sendAt netIn .fragTime 0 (ipHton p)
      deleteFrag frag
      ipTimerLoop netIn delta rest : Prog Stack (List Fragment)) := by
  simp [ipTimerLoop, hfull, httl, hp, deleteFrag]
  rfl

lemma reassFrag_not_allowed {type : UInt8} (h : reassFrag addr frag = some p) : icmpAllowed type p = false := by
  have htype : p.pkType = .none := by
    simp only [reassFrag] at h
    split_ifs at h
    split at h
    · simp at h
    · cases h
      rfl
  simp [icmpAllowed, htype]

end Places

section Bytes

def message (addr : ℕ) (place : Place) (data : UInt32) (q : Pkbuf) : Pkbuf :=
  icmpFill (allocPkb addr (ETH_HRD_SZ + (IP_HRD_SZ + ICMP_HRD_SZ + icmpPaylen q)))
    place.type place.code data q

lemma sendAt_message (netIn : NetIn) {place : Place} (data : UInt32) {q : Pkbuf}
    {s : Stack} (ha : icmpAllowed place.type q = true)
    (hc : Stack.countPkb s = .ok (addr, s')) :
    sendAt netIn place data q s = ipSendInfo netIn (message addr place data q) 0
      (UInt16.ofNat (IP_HRD_SZ + ICMP_HRD_SZ + icmpPaylen q)) 0 IP_P_ICMP (ipSrc q) s' := by
  rw [sendAt, icmpSend, if_pos ha, Stack.allocPkb, bind_assoc, bind_run hc]
  rfl

def quoted (m : Pkbuf) : List UInt8 := m.pkData.drop (ETH_HRD_SZ + IP_HRD_SZ + ICMP_HRD_SZ)

def quotedBytes (q : Pkbuf) : List UInt8 :=
  slice q.pkData ETH_HRD_SZ (icmpPaylen q) ++
    List.replicate (icmpPaylen q - (slice q.pkData ETH_HRD_SZ (icmpPaylen q)).length) 0

lemma quotedBytes_length (q : Pkbuf) : (quotedBytes q).length = icmpPaylen q := by
  have : (slice q.pkData ETH_HRD_SZ (icmpPaylen q)).length ≤ icmpPaylen q := by
    rw [slice_length]
    omega
  rw [quotedBytes, List.length_append, List.length_replicate]
  omega

lemma message_pkData (addr : ℕ) (place : Place) (data : UInt32) (q : Pkbuf) : ∃ cksum,
    (message addr place data q).pkData = storeShortAt
      (List.replicate 34 0 ++ ([place.type, place.code, 0, 0] ++ storeInt data) ++ quotedBytes q) 36 cksum := by
  have hsize : ETH_HRD_SZ + (IP_HRD_SZ + ICMP_HRD_SZ + icmpPaylen q) = 34 + (8 + icmpPaylen q) := by
    simp only [ETH_HRD_SZ, IP_HRD_SZ, ICMP_HRD_SZ]
    omega
  have hcopy : memcpy (List.replicate (34 + (8 + icmpPaylen q)) 0) 34
      ([place.type, place.code, 0, 0] ++ storeInt data ++ quotedBytes q) =
      List.replicate 34 0 ++ ([place.type, place.code, 0, 0] ++ storeInt data) ++ quotedBytes q := by
    rw [memcpy, List.drop_eq_nil_of_le, List.append_nil, List.take_replicate, Nat.min_eq_left (by omega), List.append_assoc]
    · simp
    · simp [quotedBytes_length, storeInt]
      omega
  rw [← hcopy, message, hsize]
  exact ⟨_, rfl⟩

lemma quoted_message (addr : ℕ) (place : Place) (data : UInt32) (q : Pkbuf) :
    quoted (message addr place data q) = quotedBytes q := by
  obtain ⟨cksum, hdata⟩ := message_pkData addr place data q
  rw [quoted, hdata, storeShortAt_drop _ _ _ _ (by simp [storeInt]) (by simp [ETH_HRD_SZ, IP_HRD_SZ, ICMP_HRD_SZ])]
  exact List.drop_left' (by simp [storeInt, ETH_HRD_SZ, IP_HRD_SZ, ICMP_HRD_SZ])

end Bytes

variable {pkb : Pkbuf} {total : ℕ}

section Check

structure Accepted (pkb p : Pkbuf) (total : ℕ) : Prop where
  total_eq : total = (ntohs (ipLen pkb)).toNat
  total_ge : IP_HRD_SZ ≤ total
  held : ETH_HRD_SZ + total ≤ pkb.pkData.length
  pkLen : p.pkLen = ETH_HRD_SZ + total
  pkData : p.pkData = (ipNtoh pkb).pkData.take (ETH_HRD_SZ + total)

lemma ipCheck_accepted (h : ipCheck pkb = some p) (hl : pkb.pkLen ≤ pkb.pkData.length) :
    Accepted pkb p (ntohs (ipLen pkb)).toNat := by
  obtain ⟨he, hi⟩ := header_sizes
  simp only [ipCheck] at h
  split_ifs at h with h1 h2 h3 h4 h5 h6
  have hlen : ipLen (ipNtoh pkb) = ntohs (ipLen pkb) := ipNtoh_ipLen (by omega)
  have hpk : (ipNtoh pkb).pkLen = pkb.pkLen := rfl
  cases h
  simp only [hlen, hpk, Bool.or_eq_true, decide_eq_true_eq, not_or, not_lt] at h6 ⊢
  exact ⟨rfl, by omega, by omega, rfl, rfl⟩

variable (h : Accepted pkb p total)

include h

lemma Accepted.length : p.pkData.length = ETH_HRD_SZ + total := by
  obtain ⟨he, hi⟩ := header_sizes
  have h1 := h.total_ge
  have h2 := h.held
  rw [h.pkData, List.length_take, ipNtoh_length (by omega)]
  omega

lemma Accepted.getElem? (i : ℕ) (hi : i < ETH_HRD_SZ + total) : p.pkData[i]? = pkb.pkData[turned i]? := by
  obtain ⟨he, hh⟩ := header_sizes
  have h1 := h.total_ge
  have h2 := h.held
  rw [h.pkData, List.getElem?_take, if_pos hi, ipNtoh_getElem?_turned (by omega)]

lemma Accepted.hton : (ipHton p).pkData = pkb.pkData.take (ETH_HRD_SZ + total) := by
  obtain ⟨he, hh⟩ := header_sizes
  have h1 := h.total_ge
  have h2 := h.held
  have hl := h.length
  apply List.ext_getElem?
  intro i
  rw [ipNtoh_getElem?_turned (by omega), List.getElem?_take]
  have hlt : turned i < ETH_HRD_SZ + total ↔ i < ETH_HRD_SZ + total := by
    simp only [turned]
    split_ifs <;> omega
  split_ifs with hi
  · rw [h.getElem? _ (hlt.mpr hi), turned_turned]
  · exact List.getElem?_eq_none (by rw [hl]; omega)

end Check

section Quotes

structure Quotes (pkb q m : Pkbuf) : Prop where
  bytes : quoted m = slice pkb.pkData ETH_HRD_SZ (min (ntohs (ipLen pkb)).toNat 548)
  length : (quoted m).length = min (ntohs (ipLen pkb)).toNat 548
  held : (quoted m).length ≤ q.pkLen - ETH_HRD_SZ

def Place.Faithful (pkb : Pkbuf) : Place → Prop
  | .ttlExceeded | .netUnreach | .fragTime => True
  | .redirect | .fragNeeded => False
  | .portUnreach => ntohs (ipLen pkb) = ipLen pkb ∧ ntohs (ipId pkb) = ipId pkb

variable {q : Pkbuf}

lemma quotedBytes_getElem? (hi : i < icmpPaylen q) (hl : ETH_HRD_SZ + i < q.pkData.length) :
    (quotedBytes q)[i]? = q.pkData[ETH_HRD_SZ + i]? := by
  rw [quotedBytes, List.getElem?_append_left, slice_getElem?, if_pos hi]
  rw [slice_length]
  omega

lemma quotes_of_received (addr : ℕ) (place : Place) (data : UInt32)
    (ht : total = (ntohs (ipLen pkb)).toNat) (hge : IP_HRD_SZ ≤ total)
    (hl : ETH_HRD_SZ + total ≤ pkb.pkData.length) (hpk : q.pkLen = ETH_HRD_SZ + total)
    (hd : q.pkData = pkb.pkData.take (ETH_HRD_SZ + total)) :
    Quotes pkb q (message addr place data q) := by
  obtain ⟨he, hh⟩ := header_sizes
  have hget {i : ℕ} (hi : i < 14 + total) : q.pkData[i]? = pkb.pkData[i]? := by
    rw [hd, List.getElem?_take, if_pos (by omega)]
  have hlen : ipLen q = ipLen pkb := loadShortAt_congr (hget (by omega)) (hget (by omega))
  have hpay : icmpPaylen q = min total 548 := by
    rw [icmpPaylen, hlen, ht]
    rfl
  have hslice : slice q.pkData ETH_HRD_SZ (min total 548) = slice pkb.pkData ETH_HRD_SZ (min total 548) := by
    apply slice_congr
    intro i hi
    exact hget (by omega)
  have hql : (slice q.pkData ETH_HRD_SZ (min total 548)).length = min total 548 := by
    rw [slice_length, hd, List.length_take]
    omega
  refine ⟨?_, ?_, ?_⟩
  · rw [quoted_message, quotedBytes, hpay, hql, Nat.sub_self, List.replicate_zero, List.append_nil, hslice, ht]
  · rw [quoted_message, quotedBytes_length, hpay, ht]
  · rw [quoted_message, quotedBytes_length, hpay, hpk]
    omega

section Aged

lemma aged_getElem? (hl : 26 ≤ q.pkData.length) (hi : i < 24 ∨ 26 ≤ i) :
    (aged q).pkData[i]? = (setByte 22 q (ipTtl q - 1)).pkData[i]? := by
  have hset : 26 ≤ (setByte 22 q (ipTtl q - 1)).pkData.length := hl.trans (le_memcpy_length _ _ _)
  simp only [aged, ipSetChecksum, setIpCksum]
  rw [setShort_getElem? (le_setShort hset) (by omega), setShort_getElem? hset (by omega)]

lemma setByte_getElem? {v : UInt8} (hl : 26 ≤ q.pkData.length) (i : ℕ) :
    (setByte 22 q v).pkData[i]? = if i = 22 then some v else q.pkData[i]? := by
  simp only [setByte]
  rw [memcpy_getElem? _ _ _ _ (by simp only [List.length_cons, List.length_nil]; omega)]
  by_cases hi : i = 22
  · subst hi
    simp
  · rw [if_neg (by simp only [List.length_cons, List.length_nil]; omega), if_neg hi]

lemma not_quotes_aged (addr : ℕ) (place : Place) (data : UInt32) (hge : IP_HRD_SZ ≤ total)
    (ht : total = (ntohs (ipLen pkb)).toNat) (hl : ETH_HRD_SZ + total ≤ pkb.pkData.length)
    (hd : q.pkData = pkb.pkData.take (ETH_HRD_SZ + total)) :
    ¬Quotes pkb (aged q) (message addr place data (aged q)) := by
  obtain ⟨he, hh⟩ := header_sizes
  intro hq
  have hql : q.pkData.length = 14 + total := by
    rw [hd, List.length_take]
    omega
  have hpay : icmpPaylen (aged q) = min total 548 := by
    rw [← quotedBytes_length, ← quoted_message addr place data, hq.length, ht]
  have hnew : (aged q).pkData[22]? = some (ipTtl q - 1) := by
    rw [aged_getElem? (by omega) (by omega), setByte_getElem? (by omega), if_pos rfl]
  have hold : pkb.pkData[22]? = some (ipTtl q) := by
    have hget : q.pkData[22]? = pkb.pkData[22]? := by
      rw [hd, List.getElem?_take, if_pos (by omega)]
    rw [← hget, ipTtl, List.getD_eq_getElem?_getD, List.getElem?_eq_getElem (by omega)]
    rfl
  have hbyte := congrArg (fun l => l[8]?) hq.bytes
  have hal : 22 < (aged q).pkData.length := by
    by_contra hge'
    rw [List.getElem?_eq_none (not_lt.mp hge')] at hnew
    simp at hnew
  simp only [quoted_message] at hbyte
  rw [quotedBytes_getElem? (by omega) (by omega), slice_getElem?, if_pos (by omega), he] at hbyte
  have hsame := hnew.symm.trans (hbyte.trans hold)
  have hone : ipTtl q - 1 = ipTtl q := Option.some.inj hsame
  have hnat := congrArg UInt8.toNat hone
  have hlt := (ipTtl q).toNat_lt
  rw [UInt8.toNat_sub] at hnat
  simp at hnat
  omega

end Aged

section HostOrder

lemma ipFragoff_eq_zero {p : Pkbuf} (hf : isFragment p = false)
    (ha : ipFragoff p &&& htons IP_FRAG_OFF = 0) : ipFragoff p = 0 := by
  have h1 : (ipFragoff p).toNat &&& 0x3fff = 0 := by
    rw [isFragment, bne_eq_false_iff_eq] at hf
    exact congrArg UInt16.toNat hf
  have h2 : (ipFragoff p).toNat &&& 0xff1f = 0 := congrArg UInt16.toNat ha
  have hlt := (ipFragoff p).toNat_lt
  apply UInt16.toNat_inj.mp
  calc (ipFragoff p).toNat = (ipFragoff p).toNat &&& 0xffff :=
        ((Nat.and_two_pow_sub_one_eq_mod _ 16).trans (Nat.mod_eq_of_lt hlt)).symm
    _ = ((ipFragoff p).toNat &&& 0x3fff) ||| ((ipFragoff p).toNat &&& 0xff1f) :=
        Nat.and_or_distrib_left _ 0x3fff 0xff1f
    _ = 0 := by rw [h1, h2]; rfl

lemma ntohs_loadShortAt_eq_iff {d : List UInt8} (hl : i + 2 ≤ d.length) :
    ntohs (loadShortAt d i) = loadShortAt d i ↔ d[i]? = d[i + 1]? := by
  have h1 : i < d.length := by omega
  have h2 : i + 1 < d.length := by omega
  rw [loadShortAt, ntohs, htons_loadShort, List.getD_eq_getElem?_getD, List.getD_eq_getElem?_getD,
    List.getElem?_eq_getElem h1, List.getElem?_eq_getElem h2, Option.getD_some, Option.getD_some]
  constructor
  · intro h
    have hnat := congrArg UInt16.toNat h
    rw [loadShort_toNat, loadShort_toNat] at hnat
    congr 1
    apply UInt8.toNat_inj.mp
    omega
  · intro h
    rw [Option.some.inj h]

lemma quotes_hostOrder_iff (addr : ℕ) (data : UInt32) (h : Accepted pkb p total) (rt : RtEntry)
    (hf : isFragment p = false) (ha : icmpAllowed Place.portUnreach.type (routed rt p) = true) :
    Quotes pkb (routed rt p) (message addr .portUnreach data (routed rt p)) ↔ Place.portUnreach.Faithful pkb := by
  obtain ⟨he, hh⟩ := header_sizes
  have hge := h.total_ge
  have hheld := h.held
  have hlen := h.length
  have hfrag : ipFragoff p = 0 := by
    refine ipFragoff_eq_zero hf ?_
    simp only [icmpAllowed, Bool.and_eq_true, beq_iff_eq] at ha
    exact ha.1.2
  have hzero : pkb.pkData[20]? = pkb.pkData[21]? := by
    have hsame : ntohs (loadShortAt p.pkData 20) = loadShortAt p.pkData 20 := by
      rw [show loadShortAt p.pkData 20 = 0 from hfrag]
      rfl
    have := (ntohs_loadShortAt_eq_iff (by omega)).mp hsame
    rw [h.getElem? 20 (by omega), h.getElem? 21 (by omega)] at this
    exact this.symm
  simp only [Place.Faithful, ipLen, ipId]
  rw [ntohs_loadShortAt_eq_iff (by omega), ntohs_loadShortAt_eq_iff (by omega)]
  constructor
  · intro hq
    have hpay : icmpPaylen (routed rt p) = min total 548 := by
      rw [← quotedBytes_length, ← quoted_message addr .portUnreach data, hq.length, h.total_eq]
    have hbyte {i : ℕ} (hi : i < 20) : pkb.pkData[turned (14 + i)]? = pkb.pkData[14 + i]? := by
      have hb := congrArg (fun l => l[i]?) hq.bytes
      simp only [quoted_message] at hb
      rw [quotedBytes_getElem? (by omega) (by simp only [routed]; omega), slice_getElem?,
        if_pos (by have := h.total_eq; omega)] at hb
      exact (h.getElem? (14 + i) (by omega)).symm.trans hb
    exact ⟨(@hbyte 2 (by omega)).symm, (@hbyte 4 (by omega)).symm⟩
  · rintro ⟨h1, h2⟩
    refine quotes_of_received addr _ data h.total_eq hge hheld h.pkLen ?_
    apply List.ext_getElem?
    intro i
    rw [List.getElem?_take]
    split_ifs with hi
    · refine (h.getElem? i hi).trans ?_
      have : i = 16 ∨ i = 17 ∨ i = 18 ∨ i = 19 ∨ i = 20 ∨ i = 21 ∨ turned i = i := by
        simp only [turned]
        split_ifs <;> omega
      rcases this with rfl | rfl | rfl | rfl | rfl | rfl | hi
      · exact h1.symm
      · exact h1
      · exact h2.symm
      · exact h2
      · exact hzero.symm
      · exact hzero
      · rw [hi]
    · exact List.getElem?_eq_none (by simp only [routed]; omega)

end HostOrder

theorem quotes_iff {place : Place} (addr : ℕ) (data : UInt32) (hl : pkb.pkLen ≤ pkb.pkData.length)
    (h : Calls pkb place q) (ha : icmpAllowed place.type q = true) :
    Quotes pkb q (message addr place data q) ↔ place.Faithful pkb := by
  cases h with
  | netUnreach hp =>
    have hacc := ipCheck_accepted hp hl
    exact iff_of_true (quotes_of_received addr _ data hacc.total_eq hacc.total_ge hacc.held
      hacc.pkLen hacc.hton) trivial
  | ttlExceeded rt hp =>
    have hacc := ipCheck_accepted hp hl
    exact iff_of_true (quotes_of_received addr _ data hacc.total_eq hacc.total_ge hacc.held
      hacc.pkLen hacc.hton) trivial
  | fragTime rt hp =>
    have hacc := ipCheck_accepted hp hl
    exact iff_of_true (quotes_of_received addr _ data hacc.total_eq hacc.total_ge hacc.held
      hacc.pkLen hacc.hton) trivial
  | redirect rt hp =>
    have hacc := ipCheck_accepted hp hl
    exact iff_of_false (not_quotes_aged addr _ data hacc.total_ge hacc.total_eq hacc.held hacc.hton) id
  | fragNeeded rt hp =>
    have hacc := ipCheck_accepted hp hl
    exact iff_of_false (not_quotes_aged addr _ data hacc.total_ge hacc.total_eq hacc.held hacc.hton) id
  | portUnreach rt hp hf => exact quotes_hostOrder_iff addr data (ipCheck_accepted hp hl) rt hf ha

end Quotes

def closedPort : Pkbuf where
  pkAddr := 0
  pkPro := ETH_P_IP
  pkType := .localhost
  pkLen := 50
  pkIndev := some 0
  pkRtdst := none
  pkData := List.replicate 14 0 ++
    [0x45, 0, 0, 0x24, 0, 0, 0, 0, 0x40, 0x11, 0x66, 0xc7,
      0xa, 0, 0, 2, 0xa, 0, 0, 1] ++ [0x30, 0x39, 0, 7, 0, 0x10, 0, 0] ++ List.replicate 8 0x41

theorem quotes_iff_closedPort : Quotes closedPort (ipHton (ipNtoh closedPort))
    (message 1 .netUnreach 0 (ipHton (ipNtoh closedPort))) :=
  (quotes_iff 1 0 (by decide) (.netUnreach (by decide +kernel)) (by decide +kernel)).mpr trivial

-- The length 0x0024 is read as 0x2400.
theorem quotes_beyond_end : let rt : RtEntry := ⟨0x0100000a, 0xffffffff, 0, 0, 0, 0⟩
    let q := routed rt (ipNtoh closedPort)
    Calls closedPort .portUnreach q ∧ icmpAllowed Place.portUnreach.type q = true ∧
      (quoted (message 1 .portUnreach 0 q)).length = 548 ∧ q.pkLen - ETH_HRD_SZ = 36 ∧
      ¬Quotes closedPort q (message 1 .portUnreach 0 q) := by
  intro rt q
  have hlen : (quoted (message 1 .portUnreach 0 q)).length = 548 := by
    rw [quoted_message, quotedBytes_length]
    decide +kernel
  refine ⟨.portUnreach rt (by decide +kernel) (by decide +kernel), by decide +kernel, hlen,
    by decide +kernel, fun hq => ?_⟩
  have hheld := hq.held
  rw [hlen, show q.pkLen - ETH_HRD_SZ = 36 from by decide +kernel] at hheld
  omega

end Tapip.Ip.Quote
