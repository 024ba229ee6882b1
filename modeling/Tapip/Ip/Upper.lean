import Tapip.Ip.FragTable

/-! The packets that the layers above IP get: accepted by `ip_in` as they came, or put together by
`ip_reass`. What `tcp_in` and `udp_in` check of their own headers (tcp/tcp_in.c, udp/udp.c). -/

namespace Tapip.Ip.Upper

open Foundation.Bytes Foundation.Program Net Net.Pkb Header Frag In Lib.Checksum
open FragQueue Reassembly Quote FragTable
open Tcp (ipdlen ip2tcp tcphlen tcpBit tcpIn tcpRecv tcpSegmentInit TCP_HRD_SZ TcpEnv)

section Passed

structure Whole (pkb : Pkbuf) : Prop where
  hlen_ge : IP_HRD_SZ ≤ iphlen pkb
  hlen_le : iphlen pkb ≤ (ipLen pkb).toNat
  pkLen_eq : pkb.pkLen = ETH_HRD_SZ + (ipLen pkb).toNat
  length_ge : pkb.pkLen ≤ pkb.pkData.length

inductive Passed (netIn : NetIn) : Pkbuf → Prop
  | accepted {frame p : Pkbuf} (rt : RtEntry) : frame.pkLen ≤ frame.pkData.length →
      ipCheck frame = some p → Passed netIn (routed rt p)
  | joined {trace : List (Op × Option Pkbuf)} {l : List Fragment} {op : Op} {p : Pkbuf} :
      Run netIn trace l → (op, some p) ∈ trace → Passed netIn p

end Passed

variable {frag : Fragment} {pkb : Pkbuf}

section First

variable {frag' : Fragment}

def FirstIn (frag : Fragment) : Prop :=
  frag.fragFirstIn = true → ∃ p rest, frag.fragPkb = p :: rest ∧ ipoff p = 0 ∧ ipMF p = true

lemma FirstIn.placeLast (h : FirstIn frag) : FirstIn (fragOut pkb (placeLast pkb frag)) := by
  intro hf
  rw [fragOut_fragFirstIn] at hf
  obtain ⟨p, rest, hp, ho, hm⟩ := h hf
  refine ⟨p, rest ++ [pkb], ?_, ho, hm⟩
  rw [fragOut_fragPkb, FragQueue.placeLast, hp, List.cons_append]

lemma FirstIn.placeAt (h : FirstIn frag) (hm : ipMF pkb = true) {before after : List Pkbuf}
    (hpos : fragPos (ipoff pkb) frag.fragPkb.reverse [] = some (before, after)) :
    FirstIn (fragOut pkb (placeAt pkb frag before after)) := by
  intro hf
  obtain ⟨-, hafter, hbefore⟩ := fragPos_spec hpos
  have happ := fragPos_append hpos
  simp only [fragOut_fragFirstIn, FragQueue.placeAt, Bool.or_eq_true, beq_iff_eq] at hf
  rw [fragOut_fragPkb, FragQueue.placeAt]
  by_cases hz : ipoff pkb = 0
  · have hnil : before = [] := by
      apply List.getLast?_eq_none_iff.mp
      apply Option.eq_none_iff_forall_ne_some.mpr
      intro q hq
      have := hbefore q hq
      omega
    exact ⟨pkb, after, by rw [hnil, List.nil_append], hz, hm⟩
  · obtain ⟨p, rest, hp, ho, hpm⟩ := h (hf.resolve_right hz)
    cases before with
    | nil =>
      rw [List.nil_append, hp] at happ
      rcases hafter p (by rw [happ]; exact List.mem_cons_self) with hn | hlt
      · exact absurd hn List.not_mem_nil
      · omega
    | cons q before =>
      obtain ⟨rfl, -⟩ := List.cons.inj (happ.trans hp)
      exact ⟨q, before ++ pkb :: after, List.cons_append, ho, hpm⟩

lemma FirstIn.insert {b : Bool} (h : FirstIn frag) (hi : insertFrag pkb frag = (b, frag')) : FirstIn frag' := by
  cases b with
  | true =>
    obtain ⟨_, ⟨_, _, rfl⟩ | ⟨hm, before, after, hp, _, _, rfl⟩⟩ := insertFrag_true hi
    · exact h.placeLast
    · exact h.placeAt hm hp
  | false =>
    rcases insertFrag_false hi with rfl | ⟨_, _, _, rfl⟩
    · exact h
    · exact h

end First

variable {netIn : NetIn}

section Run

variable {P : Fragment → Prop} {l l' : List Fragment}

structure Lasting (P : Fragment → Prop) : Prop where
  new : ∀ pkb, P (newFrag pkb)
  insert : ∀ {pkb frag b frag'}, Checked pkb → P frag → insertFrag pkb frag = (b, frag') → P frag'
  ttl : ∀ {frag} (t : ℤ), P frag → P { frag with fragTtl := t }

lemma Lasting.split (hP : Lasting P) (h : ∀ frag ∈ l, P frag) {before after : List Fragment} {frag : Fragment}
    (hs : fragSplit pkb l = (before, frag, after)) : P frag ∧ ∀ f ∈ before ++ after, P f := by
  obtain ⟨-, -, rfl | ⟨rfl, rfl, rfl, -⟩⟩ := fragSplit_spec hs
  · refine ⟨h frag (by simp), fun f hf => h f ?_⟩
    rcases List.mem_append.mp hf with hf | hf
    · exact List.mem_append_left _ hf
    · exact List.mem_append_right _ (List.mem_cons_of_mem _ hf)
  · exact ⟨hP.new pkb, h⟩

lemma Lasting.ipReass (hP : Lasting P) (h : ∀ frag ∈ l, P frag) (hc : Checked pkb) (addr : ℕ) :
    (∀ frag ∈ (ipReass addr pkb l).fragHead, P frag) ∧
      ∀ r ∈ (ipReass addr pkb l).pkb, ∃ frag, P frag ∧ fullFrag frag = true ∧ reassFrag addr frag = some r := by
  obtain ⟨before, frag, after, hs, hdoes⟩ := ipReass_does addr pkb l
  obtain ⟨hfrag, hrest⟩ := hP.split h hs
  have hput : ∀ frag', P frag' → ∀ f ∈ before ++ frag' :: after, P f := by
    intro frag' hf' f hf
    rcases List.mem_append.mp hf with hf | hf
    · exact hrest f (List.mem_append_left _ hf)
    · rcases List.mem_cons.mp hf with rfl | hf
      · exact hf'
      · exact hrest f (List.mem_append_right _ hf)
  generalize Frag.ipReass addr pkb l = res at hdoes ⊢
  cases hdoes with
  | refuse hi => exact ⟨hput _ (hP.insert hc hfrag hi), by simp⟩
  | queue hi _ => exact ⟨hput _ (hP.insert hc hfrag hi), by simp⟩
  | complete hi hcomplete =>
    refine ⟨hrest, fun r hr => ⟨_, hP.insert hc hfrag hi, ?_, hr⟩⟩
    exact (insertFrag_complete hi).symm.trans hcomplete

lemma Lasting.expire (hP : Lasting P) (h : ∀ frag ∈ l, P frag) (delta : ℤ) : ∀ frag ∈ expire delta l, P frag := by
  intro f hf
  obtain ⟨f0, hf0, he⟩ := List.mem_filterMap.mp hf
  simp only [expireOne] at he
  split_ifs at he
  · exact Option.some.inj he ▸ h f0 hf0
  · exact Option.some.inj he ▸ hP.ttl _ (h f0 hf0)

lemma Lasting.run (hP : Lasting P) {trace : List (Op × Option Pkbuf)} (h : Run netIn trace l) :
    (∀ frag ∈ l, P frag) ∧ ∀ op r, (op, some r) ∈ trace →
      ∃ addr frag, P frag ∧ fullFrag frag = true ∧ reassFrag addr frag = some r := by
  induction h with
  | start => exact ⟨by simp, by simp⟩
  | @step trace l l' op r _ ha hs ih =>
    cases op with
    | reass pkb =>
      obtain ⟨addr, rfl, rfl⟩ := reass_inv hs
      obtain ⟨hl, hr⟩ := hP.ipReass ih.1 ha.checked addr
      refine ⟨hl, fun op q hq => ?_⟩
      rcases List.mem_append.mp hq with hq | hq
      · exact ih.2 op q hq
      · obtain ⟨-, hq⟩ := Prod.mk.inj (List.mem_singleton.mp hq)
        exact ⟨addr, hr q hq.symm⟩
    | tick =>
      obtain ⟨rfl, rfl⟩ := tick_inv hs
      refine ⟨hP.expire ih.1 1, fun op q hq => ?_⟩
      rcases List.mem_append.mp hq with hq | hq
      · exact ih.2 op q hq
      · simp at hq

lemma lasting_first : Lasting (fun frag => Tally frag ∧ FirstIn frag) where
  new pkb := ⟨newFrag_tally pkb, by simp [FirstIn, newFrag]⟩
  insert hc h hi := ⟨h.1.insert hc hi, h.2.insert hi⟩
  ttl _ h := ⟨⟨h.1.checked, h.1.rsize, h.1.hlen, h.1.last, h.1.first⟩, h.2⟩

end Run

section Joined

variable {addr : ℕ} {p r : Pkbuf}

lemma memcpy_before (d src : List UInt8) {off i : ℕ} (ho : off ≤ d.length) (hi : i < off) :
    (memcpy d off src)[i]? = d[i]? := by
  have ht : i < (d.take off).length := by
    rw [List.length_take]
    omega
  rw [memcpy, List.append_assoc, List.getElem?_append_left ht, List.getElem?_take_of_lt hi]

lemma reassCopy_before (hlen : ℕ) {pkbs : List Pkbuf} (hc : ∀ q ∈ pkbs, Checked q) {off : ℕ} {d : List UInt8}
    (ho : off ≤ d.length) : d.length ≤ (reassCopy hlen pkbs off d).length ∧
      ∀ i < off, (reassCopy hlen pkbs off d)[i]? = d[i]? := by
  induction pkbs generalizing off d with
  | nil => exact ⟨le_rfl, fun _ _ => rfl⟩
  | cons q pkbs ih =>
    have hq := (hc q (by simp)).length_eq
    generalize hsrc : slice q.pkData (ETH_HRD_SZ + hlen) ((ipLen q).toNat - hlen) = src
    have hlen' : src.length = (ipLen q).toNat - hlen := by
      rw [← hsrc, slice_length]
      omega
    have hroom : off + ((ipLen q).toNat - hlen) ≤ (memcpy d off src).length := by
      simp only [memcpy, List.length_append, List.length_take, List.length_drop]
      omega
    obtain ⟨hle, hsame⟩ := ih (fun x hx => hc x (List.mem_cons_of_mem _ hx)) hroom
    simp only [reassCopy, hsrc]
    refine ⟨(le_memcpy_length d src off).trans hle, fun i hi => ?_⟩
    rw [hsame i (by omega), memcpy_before d src ho hi]

lemma whole_of_reassFrag (ht : Tally frag) {rest : List Pkbuf} (hp : frag.fragPkb = p :: rest)
    (hn : iphlen p = frag.fragHlen) (hr : reassFrag addr frag = some r) : Whole r := by
  have hc : Checked p := ht.checked p (by simp [hp])
  have hge := hc.hlen_ge
  have hplen := hc.length_eq
  have hple := hc.hlen_le
  have hall : ∀ q ∈ p :: rest, Checked q := hp ▸ ht.checked
  simp only [reassFrag, hp] at hr
  split_ifs at hr with hbig
  simp only [ETH_HRD_SZ, IP_HRD_SZ] at *
  set len := frag.fragHlen + frag.fragSize with hlendef
  set q : Pkbuf := { allocPkb addr (14 + len) with
    pkPro := ETH_P_IP
    pkData := memcpy (allocPkb addr (14 + len)).pkData 0 (slice p.pkData 0 (14 + frag.fragHlen)) } with hq
  have hsl : (slice p.pkData 0 (14 + frag.fragHlen)).length = 14 + frag.fragHlen := by
    rw [slice_length]
    omega
  have halloc : (allocPkb addr (14 + len)).pkData.length = 14 + len := List.length_replicate
  have hql : q.pkData.length = 14 + len := by
    rw [hq]
    simp only
    rw [memcpy_length _ _ _ (by omega), halloc]
  have hfill : (setIpLen (setIpFragoff q 0) (UInt16.ofNat len)).pkData.length = 14 + len := by
    rw [setIpLen, setIpFragoff, setShort_length (by rw [setShort_length] <;> omega), setShort_length (by omega), hql]
  have hroom : 14 + frag.fragHlen ≤ (setIpLen (setIpFragoff q 0) (UInt16.ofNat len)).pkData.length := by omega
  obtain ⟨hle, hsame⟩ := reassCopy_before frag.fragHlen hall hroom
  have hlen : ipLen r = UInt16.ofNat len := by
    rw [← Option.some.inj hr, ipLen]
    simp only
    rw [loadShortAt_congr (hsame 16 (by omega)) (hsame 17 (by omega))]
    exact setShort_load (by rw [setIpFragoff, setShort_length] <;> omega)
  have hbyte : r.pkData[14]? = p.pkData[14]? := by
    rw [← Option.some.inj hr]
    simp only
    rw [hsame 14 (by omega), setIpLen, setIpFragoff,
      setShort_getElem? (by rw [setShort_length] <;> omega) (by omega), setShort_getElem? (by omega) (by omega), hq]
    simp only
    rw [memcpy_getElem? _ _ _ _ (by omega), if_pos (by omega), slice_getElem?, if_pos (by omega)]
  have hhlen : iphlen r = frag.fragHlen := by
    rw [← hn, iphlen, iphlen, ipHlen, ipHlen, List.getD_eq_getElem?_getD, List.getD_eq_getElem?_getD, hbyte]
  have hnat : (ipLen r).toNat = len := by
    rw [hlen, UInt16.toNat_ofNat']
    omega
  have hpk : r.pkLen = 14 + len := by
    rw [← Option.some.inj hr]
    rfl
  refine ⟨by rw [hhlen]; simp only [IP_HRD_SZ]; omega, by omega, by simp only [ETH_HRD_SZ]; omega, ?_⟩
  rw [hpk, ← hfill, ← Option.some.inj hr]
  exact hle

end Joined

section Whole

lemma ipCheck_pkLen {frame p : Pkbuf} (h : ipCheck frame = some p) (hl : frame.pkLen ≤ frame.pkData.length) :
    p.pkLen = p.pkData.length := by
  have hacc := ipCheck_accepted h hl
  have hheld := hacc.held
  have hge := hacc.total_ge
  simp only [ETH_HRD_SZ, IP_HRD_SZ] at hge hheld
  rw [hacc.pkLen, hacc.pkData, List.length_take, ipNtoh_length (by omega)]
  simp only [ETH_HRD_SZ]
  omega

lemma Passed.whole (h : Passed netIn pkb) : Whole pkb := by
  cases h with
  | accepted rt hl hp =>
    have hc := ipCheck_checked hp hl
    have hlen := ipCheck_pkLen hp hl
    exact ⟨hc.hlen_ge, hc.hlen_le, hlen.trans hc.length_eq, hlen.le⟩
  | joined hrun hmem =>
    obtain ⟨addr, frag, ⟨ht, hfirst⟩, hfull, hr⟩ := (lasting_first.run hrun).2 _ _ hmem
    simp only [fullFrag, Bool.and_eq_true] at hfull
    obtain ⟨p, rest, hp, -, hm⟩ := hfirst hfull.1.1
    exact whole_of_reassFrag ht hp (ht.hlen p (by simp [hp]) hm) hr

end Whole

section Tcp

def tcpDoff (pkb : Pkbuf) : ℕ := (pkb.pkData.getD (ip2tcp pkb + 12) 0 >>> 4).toNat

def tcpVerifies (pkb : Pkbuf) : Bool :=
  tcpChksum (ipSrc pkb) (ipDst pkb) (UInt16.ofInt (ipdlen pkb))
    (slice pkb.pkData (ip2tcp pkb) (ipdlen pkb).toNat) == 0

def tcpAccepts (pkb : Pkbuf) : Bool :=
  decide (TCP_HRD_SZ ≤ ipdlen pkb) && decide ((tcphlen pkb : ℤ) ≤ ipdlen pkb) && tcpVerifies pkb

lemma tcpIn_eq {σ : Type} (env : TcpEnv σ) (pkb : Pkbuf) :
    tcpIn env pkb = if tcpAccepts pkb then tcpRecv env pkb (tcpSegmentInit pkb) else env.freePkb pkb := by
  simp only [tcpIn, tcpAccepts, tcpVerifies, bne]
  by_cases h1 : TCP_HRD_SZ ≤ ipdlen pkb
  · by_cases h2 : (tcphlen pkb : ℤ) ≤ ipdlen pkb
    · simp only [decide_eq_false (not_lt.mpr h1), decide_eq_false (not_lt.mpr h2), decide_eq_true h1,
        decide_eq_true h2, Bool.or_self, Bool.false_eq_true, if_false, Bool.and_self, Bool.true_and]
      generalize tcpChksum (ipSrc pkb) (ipDst pkb) (UInt16.ofInt (ipdlen pkb))
        (slice pkb.pkData (ip2tcp pkb) (ipdlen pkb).toNat) = cksum
      by_cases hc : cksum = 0
      · simp [hc]
      · simp [hc]
    · simp [h2, not_le.mp h2]
  · simp [h1, not_le.mp h1]

lemma tcphlen_eq (pkb : Pkbuf) : tcphlen pkb = 4 * tcpDoff pkb := by
  rw [tcphlen, tcpDoff, Nat.shiftLeft_eq]
  omega

structure TcpFields (pkb : Pkbuf) : Prop where
  doff : 5 ≤ tcpDoff pkb
  fills : ip2tcp pkb + 4 * tcpDoff pkb + (tcpSegmentInit pkb).dlen.toNat = pkb.pkLen
  dlen : ((tcpSegmentInit pkb).dlen.toNat : ℤ) = ipdlen pkb - 4 * tcpDoff pkb
  len : (tcpSegmentInit pkb).len.toNat = (tcpSegmentInit pkb).dlen.toNat +
    (tcpSegmentInit pkb).syn.toNat + (tcpSegmentInit pkb).fin.toNat
  text : (tcpSegmentInit pkb).text = pkb.pkData.drop (ip2tcp pkb + 4 * tcpDoff pkb)

lemma ipdlen_lt (pkb : Pkbuf) : ipdlen pkb < 65536 := by
  have := (ipLen pkb).toNat_lt
  simp only [ipdlen]
  omega

lemma dlen_toNat (h : (tcphlen pkb : ℤ) ≤ ipdlen pkb) :
    ((tcpSegmentInit pkb).dlen.toNat : ℤ) = ipdlen pkb - tcphlen pkb := by
  have hlt := ipdlen_lt pkb
  simp only [tcpSegmentInit, UInt32.ofInt, UInt32.toNat_ofNat']
  omega

lemma tcpFields (hw : Whole pkb) (ha : tcpAccepts pkb = true) (hd : 5 ≤ tcpDoff pkb) : TcpFields pkb := by
  simp only [tcpAccepts, Bool.and_eq_true, decide_eq_true_eq] at ha
  obtain ⟨⟨-, hle⟩, -⟩ := ha
  have hdlen := dlen_toNat hle
  have hlt := ipdlen_lt pkb
  have hlen := hw.pkLen_eq
  rw [tcphlen_eq] at hdlen
  refine ⟨hd, ?_, by rw [hdlen]; simp, ?_, ?_⟩
  · simp only [ipdlen, ip2tcp] at *
    omega
  · have hbit : ∀ b : Bool, b.toUInt32.toNat = b.toNat := by decide
    have hle2 := (tcpBit pkb 0x02).toNat_le
    have hle1 := (tcpBit pkb 0x01).toNat_le
    simp only [tcpSegmentInit] at hdlen ⊢
    rw [UInt32.toNat_add, UInt32.toNat_add, hbit, hbit]
    omega
  · simp only [tcpSegmentInit, tcphlen_eq]

theorem tcp_header_iff (h : Passed netIn pkb) :
    tcpIn (stackEnv netIn) pkb = (if tcpAccepts pkb then tcpRecv (stackEnv netIn) pkb (tcpSegmentInit pkb)
      else Stack.freePkb pkb) ∧
    ((tcpAccepts pkb = true → TcpFields pkb) ↔
      (5 ≤ tcpDoff pkb ∨ ipdlen pkb < TCP_HRD_SZ ∨ tcpVerifies pkb = false)) := by
  refine ⟨tcpIn_eq _ _, ?_, ?_⟩
  · intro hf
    by_contra hn
    push Not at hn
    obtain ⟨hd, hlen, hv⟩ := hn
    have hle : (tcphlen pkb : ℤ) ≤ ipdlen pkb := by
      rw [tcphlen_eq]
      simp only [TCP_HRD_SZ] at hlen
      omega
    have := (hf (by simp [tcpAccepts, hlen, hle, hv])).doff
    omega
  · rintro (hd | hlen | hv) ha
    · exact tcpFields h.whole ha hd
    · simp only [tcpAccepts, Bool.and_eq_true, decide_eq_true_eq] at ha
      omega
    · simp [tcpAccepts, hv] at ha

def datagram (pro : UInt8) (body : List UInt8) : Pkbuf :=
  let hdr : List UInt8 := [0x45, 0, 0, UInt8.ofNat (20 + body.length), 0, 7, 0, 0, 64, pro, 0, 0,
    10, 0, 0, 1, 10, 0, 0, 2]
  ipSetChecksum { allocPkb 0 (34 + body.length) with
    pkPro := ETH_P_IP
    pkData := List.replicate 14 0 ++ hdr ++ body }

def handed (frame : Pkbuf) : Pkbuf :=
  routed ⟨0x0200000a, 0xffffffff, 0, 1, 0, 0⟩ ((ipCheck frame).getD (allocPkb 0 0))

def ping : Pkbuf := handed (datagram 1 [8, 0, 0xf7, 0xfe, 0, 1, 0, 0])

lemma passed_handed {frame : Pkbuf} (hl : frame.pkLen ≤ frame.pkData.length)
    (h : (ipCheck frame).isSome = true) : Passed netIn (handed frame) := by
  obtain ⟨p, hp⟩ := Option.isSome_iff_exists.mp h
  rw [handed, hp]
  exact .accepted _ hl hp

def ackSegment (doff : UInt8) : List UInt8 :=
  let bytes : List UInt8 := [0, 7, 0, 9, 0, 0, 0, 1, 0, 0, 0, 1, doff <<< 4, 0x10, 16, 0, 0, 0, 0, 0]
  storeShortAt bytes 16 (tcpChksum 0x0100000a 0x0200000a 20 bytes)

def ackPacket (doff : UInt8) : Pkbuf := handed (datagram 6 (ackSegment doff))

theorem tcp_header_ack : tcpAccepts (ackPacket 5) = true ∧ TcpFields (ackPacket 5) :=
  have h : Passed dropAll (ackPacket 5) := passed_handed (by decide +kernel) (by decide +kernel)
  have ha : tcpAccepts (ackPacket 5) = true := by decide +kernel
  ⟨ha, (tcp_header_iff h).2.mpr (.inl (by decide +kernel)) ha⟩

/-- With a data offset of 0 the whole header is the text. -/
theorem tcp_header_short : Passed dropAll (ackPacket 0) ∧ isFragment (ackPacket 0) = false ∧
    tcpIn (stackEnv dropAll) (ackPacket 0) =
      tcpRecv (stackEnv dropAll) (ackPacket 0) (tcpSegmentInit (ackPacket 0)) ∧
    tcpDoff (ackPacket 0) = 0 ∧ (tcpSegmentInit (ackPacket 0)).dlen = 20 ∧
    (tcpSegmentInit (ackPacket 0)).text = ackSegment 0 := by
  have ha : tcpAccepts (ackPacket 0) = true := by decide +kernel
  refine ⟨passed_handed (by decide +kernel) (by decide +kernel), by decide +kernel, ?_, by decide +kernel,
    by decide +kernel, by decide +kernel⟩
  rw [tcpIn_eq, if_pos ha]

end Tcp

section Udp

def udpCovered (pkb : Pkbuf) : ℤ := min (ipdlen pkb) (udpLength pkb)

def udpVerifies (pkb : Pkbuf) : Bool :=
  udpChecksum pkb == 0 || udpChksum (ipSrc pkb) (ipDst pkb) (UInt16.ofInt (udpCovered pkb))
    (slice pkb.pkData (ip2udp pkb) (udpCovered pkb).toNat) == 0

def udpAccepts (pkb : Pkbuf) : Bool :=
  decide (UDP_HRD_SZ ≤ ipdlen pkb) && decide (udpLength pkb ≤ ipdlen pkb) && udpVerifies pkb

lemma udpIn_eq (netIn : NetIn) (pkb : Pkbuf) :
    udpIn netIn pkb = if udpAccepts pkb then udpRecv netIn pkb else Stack.freePkb pkb := by
  simp only [udpIn, udpAccepts, udpVerifies, udpCovered, bne]
  by_cases h1 : UDP_HRD_SZ ≤ ipdlen pkb
  · by_cases h2 : udpLength pkb ≤ ipdlen pkb
    · simp only [decide_eq_false (not_lt.mpr h1), decide_eq_false (not_lt.mpr h2), decide_eq_true h1,
        decide_eq_true h2, Bool.or_self, Bool.false_eq_true, if_false, Bool.and_self, Bool.true_and]
      generalize udpChksum (ipSrc pkb) (ipDst pkb) (UInt16.ofInt (min (ipdlen pkb) (udpLength pkb)))
        (slice pkb.pkData (ip2udp pkb) (min (ipdlen pkb) (udpLength pkb)).toNat) = cksum
      by_cases hz : udpChecksum pkb = 0
      · simp [hz]
      · by_cases hc : cksum = 0
        · simp [hc]
        · simp [hz, hc]
    · simp [h2, not_le.mp h2]
  · simp [h1, not_le.mp h1]

def Bound (pkb : Pkbuf) (s : Stack) : Prop :=
  ∃ id s', udpLookupSock (loadShortAt pkb.pkData (ip2udp pkb + 2)) s = .ok (some id, s')

structure UdpFields (pkb : Pkbuf) : Prop where
  length_ge : UDP_HRD_SZ ≤ udpLength pkb
  length_le : udpLength pkb ≤ ipdlen pkb
  covers : udpChecksum pkb ≠ 0 → UDP_HRD_SZ ≤ udpCovered pkb
  data : 0 ≤ udpLength pkb - UDP_HRD_SZ ∧ ip2udp pkb + UDP_HRD_SZ + (udpLength pkb - UDP_HRD_SZ) ≤ pkb.pkLen

lemma udpFields (hw : Whole pkb) (ha : udpAccepts pkb = true) (hl : UDP_HRD_SZ ≤ udpLength pkb) : UdpFields pkb := by
  simp only [udpAccepts, Bool.and_eq_true, decide_eq_true_eq] at ha
  obtain ⟨⟨hge, hle⟩, -⟩ := ha
  have hlen := hw.pkLen_eq
  have hhlen := hw.hlen_le
  refine ⟨hl, hle, fun _ => le_min hge hl, by omega, ?_⟩
  simp only [ipdlen, ip2udp] at *
  omega

theorem udp_header_iff (h : Passed netIn pkb) (s : Stack) :
    udpIn netIn pkb = (if udpAccepts pkb then udpRecv netIn pkb else Stack.freePkb pkb) ∧
    ((udpAccepts pkb = true ∧ Bound pkb s → UdpFields pkb) ↔
      (UDP_HRD_SZ ≤ udpLength pkb ∨ ipdlen pkb < UDP_HRD_SZ ∨ udpVerifies pkb = false ∨ ¬ Bound pkb s)) := by
  refine ⟨udpIn_eq _ _, ?_, ?_⟩
  · intro hf
    by_contra hn
    push Not at hn
    obtain ⟨hlen, hge, hv, hb⟩ := hn
    have hle : udpLength pkb ≤ ipdlen pkb := by omega
    have := (hf ⟨by simp [udpAccepts, hge, hle, hv], hb⟩).length_ge
    omega
  · rintro (hl | hlen | hv | hb) ⟨ha, hbound⟩
    · exact udpFields h.whole ha hl
    · simp only [udpAccepts, Bool.and_eq_true, decide_eq_true_eq] at ha
      omega
    · simp [udpAccepts, hv] at ha
    · exact absurd hbound hb

def listener : InetSock := ⟨⟨17, 0, 0, 0x0900, 0, none, [], true, true, 1⟩, false⟩

def listening : Stack := { idle [] with socks := [some listener], udpTable := [0] }

def bareDatagram (length : UInt8) : Pkbuf := handed (datagram 17 [0xeb, 0xde, 0, 9, 0, length, 0, 0])

def cutDatagram : Pkbuf := handed (datagram 17 [0xeb, 0xde, 0, 9, 0, 4, 1, 2])

lemma bound_listening {pkb : Pkbuf} (h : loadShortAt pkb.pkData (ip2udp pkb + 2) = 0x0900) : Bound pkb listening := by
  rw [Bound, h]
  exact ⟨0, _, run_of_outcome (by decide +kernel)⟩

theorem udp_header_bare : udpAccepts (bareDatagram 8) = true ∧ Bound (bareDatagram 8) listening ∧
    UdpFields (bareDatagram 8) :=
  have h : Passed dropAll (bareDatagram 8) := passed_handed (by decide +kernel) (by decide +kernel)
  have ha : udpAccepts (bareDatagram 8) = true := by decide +kernel
  have hb := bound_listening (by decide +kernel)
  ⟨ha, hb, (udp_header_iff h listening).2.mpr (.inl (by decide +kernel)) ⟨ha, hb⟩⟩

theorem udp_header_cut : Passed dropAll cutDatagram ∧ isFragment cutDatagram = false ∧
    (finalState (udpIn dropAll cutDatagram) listening).socks.map (Option.map (fun inet => inet.sk.recvQueue)) =
      [some [cutDatagram]] ∧
    udpLength cutDatagram = 4 ∧ udpChecksum cutDatagram ≠ 0 ∧ udpCovered cutDatagram = 4 ∧
    udpLength cutDatagram - UDP_HRD_SZ = -4 :=
  ⟨passed_handed (by decide +kernel) (by decide +kernel), by decide +kernel, by decide +kernel,
    by decide +kernel, by decide +kernel, by decide +kernel, by decide +kernel⟩

end Udp

end Tapip.Ip.Upper
