import Tapip.Net.ArpInvariant
import Tapip.Net.In
import Tapip.Tcp.SegmentCustody

/-! Every frame that a driver passes to the stack is given back or linked in one queue. -/

namespace Tapip.Net.Frames

open Foundation.Program Foundation.Refcount Foundation.Cost Pkb Custody
open Ip.Header Ip.Frag Ip.Out Ip.In Ip.Custody Tcp.SegmentCustody
open Lib.Checksum (IP_P_TCP IP_P_UDP)
open Tcp (TcpWorld tcpSegmentInit tcpIn)
open ArpInvariant (lo eth)

section Regular

/-- The packet that a frame in an IP packet lets the IP layer pass up, a fragment among the others. -/
def upper (s : Stack) (pkb : Pkbuf) : Option Pkbuf := do
  let pkb ← ipCheck pkb
  let rt ← rtLookup s.rtHead (ipDst pkb)
  let pkb := { pkb with pkRtdst := some rt }
  if isLocal rt then
    if isFragment pkb then
      if ipFragoff pkb &&& IP_FRAG_DF != 0 then none
      else (ipReass s.pkbs.next pkb s.fragHead).pkb
    else some pkb
  else none

def regularPacket (w : TcpWorld) (pkb : Pkbuf) : Bool :=
  ipPro pkb != IP_P_TCP.toUInt8 || (found w (tcpSegmentInit pkb)).all fun t => regularFor t (tcpSegmentInit pkb)

/-- No RARP frame, and no frame that brings TCP a segment which is not regular for its sock. -/
def regular (s : Stack) (dev : ℕ) (pkb : Pkbuf) : Bool :=
  (s.netDevices[dev]?.bind fun nd => ethInit nd pkb).all fun pkb =>
    pkb.pkPro != ETH_P_RARP && (pkb.pkPro != ETH_P_IP ||
      (upper s { pkb with pkIndev := some dev }).all fun p => regularPacket s.tcp p)

end Regular

section Local

def SameTcp (s s' : Stack) : Prop := s'.tcp = s.tcp

lemma SameTcp.bind {α β : Type} {x : Prog Stack α} {f : α → Prog Stack β} (hx : Respects SameTcp x)
    (hf : ∀ a, Respects SameTcp (f a)) : Respects SameTcp (x >>= f) :=
  Respects.bind (R := SameTcp) (fun hab hbc => Eq.trans hbc hab) hx hf

lemma sameTcp_reads {α : Type} {x : Prog Stack α} (h : Respects Eq x) : Respects SameTcp x :=
  fun s a s' hrun => congrArg Stack.tcp (h s a s' hrun).symm

lemma sameTcp_countPkb : Respects SameTcp Stack.countPkb := by
  intro s a s' h
  simp only [Stack.countPkb] at h
  split_ifs at h
  cases h
  rfl

lemma sameTcp_freePkb (pkb : Pkbuf) : Respects SameTcp (Stack.freePkb pkb) := by
  intro s a s' h
  simp only [Stack.freePkb] at h
  split_ifs at h
  cases h
  rfl

lemma sameTcp_freePkbs (freed : List Pkbuf) : Respects SameTcp (freed.forM Stack.freePkb) := by
  induction freed with
  | nil => exact sameTcp_reads reads_pure
  | cons pkb freed ih => exact SameTcp.bind (sameTcp_freePkb pkb) fun _ => ih

lemma sameTcp_recvQueueAdd (id : ℕ) (pkb : Pkbuf) : Respects SameTcp (recvQueueAdd id pkb) := by
  refine SameTcp.bind (sameTcp_reads reads_getInet) fun inet => ?_
  split_ifs
  · intro s a s' h
    cases h
    rfl
  · exact sameTcp_reads reads_fault

lemma sameTcp_rawChain (pkb : Pkbuf) (ids : List ℕ) : Respects SameTcp (rawChain pkb ids) := by
  induction ids with
  | nil => exact sameTcp_reads reads_pure
  | cons id rest ih =>
    refine SameTcp.bind (sameTcp_reads reads_getInet) fun inet => ?_
    dsimp only
    split_ifs
    · refine SameTcp.bind (SameTcp.bind sameTcp_countPkb fun _ => sameTcp_reads reads_pure) fun p => ?_
      exact SameTcp.bind (sameTcp_recvQueueAdd id p) fun _ => ih
    · exact ih

lemma reassemble_run {s s' : Stack} {pkb : Pkbuf} {r : Option Pkbuf} (h : reassemble pkb s = .ok (r, s')) :
    r = (ipReass s.pkbs.next pkb s.fragHead).pkb ∧ s'.tcp = s.tcp := by
  simp only [reassemble] at h
  generalize ipReass s.pkbs.next pkb s.fragHead = res at h ⊢
  have htail : ∀ s1, (do
      (fun s => .ok ((), { s with fragHead := res.fragHead }) : Prog Stack Unit)
      res.freed.forM Stack.freePkb
      return res.pkb : Prog Stack (Option Pkbuf)) s1 = .ok (r, s') → r = res.pkb ∧ s'.tcp = s1.tcp := by
    intro s1 htail
    obtain ⟨_, s2, hset, hrest⟩ := bind_inv htail
    cases hset
    obtain ⟨_, s3, hfree, hpure⟩ := bind_inv hrest
    obtain ⟨rfl, rfl⟩ := ok_inj hpure
    have hsame : SameTcp { s1 with fragHead := res.fragHead } s3 := sameTcp_freePkbs res.freed _ _ _ hfree
    exact ⟨rfl, hsame⟩
  split_ifs at h
  · obtain ⟨_, s1, hcnt, hrest⟩ := bind_inv h
    obtain ⟨hr, htcp⟩ := htail s1 hrest
    exact ⟨hr, htcp.trans (sameTcp_countPkb _ _ _ hcnt)⟩
  · exact htail s h

lemma rtInput_run {netIn : NetIn} {s s' : Stack} {pkb p : Pkbuf} (h : rtInput netIn pkb s = .ok (some p, s')) :
    ∃ rt, rtLookup s.rtHead (ipDst pkb) = some rt ∧ p = { pkb with pkRtdst := some rt } ∧ s' = s := by
  simp only [rtInput] at h
  split at h
  · obtain ⟨_, s1, -, hrest⟩ := bind_inv h
    obtain ⟨_, s2, -, hrest⟩ := bind_inv hrest
    cases hrest
  · rename_i rt hrt
    obtain ⟨hp, rfl⟩ := ok_inj h
    exact ⟨rt, hrt, (Option.some.inj hp).symm, rfl⟩

lemma ipCheck_pkAddr {pkb p : Pkbuf} (h : ipCheck pkb = some p) : p.pkAddr = pkb.pkAddr := by
  simp only [ipCheck] at h
  split_ifs at h
  cases h
  exact ipHton_pkAddr pkb

end Local

section In

variable {busy : ℕ → ℤ} {netIn : NetIn} {s : Stack} {pkb : Pkbuf} {a : ℕ}

variable (hpos : 0 ≤ busy)
  (hnet : ∀ busy, 0 ≤ busy → Takes busy netIn)

include hpos hnet

lemma spends_passUp (ha : pkb.pkAddr = a) (hreg : regularPacket s.tcp pkb = true) :
    Spends busy a (passUp netIn pkb) s := by
  refine keeps_rawIn.seq fun _ s1 hraw => ?_
  have htcp : s1.tcp = s.tcp := sameTcp_rawChain pkb s.rawTable s _ _ hraw
  split_ifs with hicmp hpro
  · exact spends_icmpIn (hnet busy hpos) ha
  · refine spends_tcpIn hpos hnet ha fun t ht => ?_
    rw [htcp] at ht
    simp only [regularPacket, hpro, bne_self_eq_false, Bool.false_or, Option.all_eq_true] at hreg
    exact hreg t ht
  · exact spends_udpIn (hnet busy hpos) ha
  · exact spends_freePkb ha

lemma spends_ipRecvLocal (ha : pkb.pkAddr = a) (hreg : ∀ p ∈ (if isFragment pkb then
        if ipFragoff pkb &&& IP_FRAG_DF != 0 then none else (ipReass s.pkbs.next pkb s.fragHead).pkb
      else some pkb : Option Pkbuf), regularPacket s.tcp p = true) :
    Spends busy a (ipRecvLocal netIn pkb) s := by
  rw [ipRecvLocal]
  split_ifs at hreg ⊢ with hfrag hdf
  · exact spends_freePkb ha
  · refine (costs_reassemble ha).bind fun r s1 hrun => ?_
    obtain ⟨rfl, htcp⟩ := reassemble_run hrun
    generalize hr : (ipReass s.pkbs.next pkb s.fragHead).pkb = r at hreg
    cases r with
    | none => exact costsAt_pure (by simp [handed])
    | some p =>
      refine CostsAt.cast (spends_passUp hpos hnet rfl ?_) fun _ => ?_
      · rw [htcp]
        exact hreg p rfl
      · simp [handed]
  · exact spends_passUp hpos hnet ha (hreg pkb rfl)

lemma spends_ipIn (ha : pkb.pkAddr = a) (hreg : ∀ p ∈ upper s pkb, regularPacket s.tcp p = true) :
    Spends busy a (ipIn netIn pkb) s := by
  rw [ipIn]
  split
  · exact spends_freePkb ha
  · rename_i p hcheck
    have hp : p.pkAddr = a := (ipCheck_pkAddr hcheck).trans ha
    refine (costs_rtInput (hnet busy hpos) hp).bind fun r s1 hrun => ?_
    cases r with
    | none => exact costsAt_pure (by simp)
    | some q =>
      obtain ⟨rt, hrt, rfl, rfl⟩ := rtInput_run hrun
      rw [upper, hcheck, Option.bind_eq_bind, Option.bind_some, hrt] at hreg
      refine CostsAt.cast (g := fun _ => spent a) ?_ fun _ => by simp
      refine (keeps_of_reads reads_rtdst).seq fun rt' s2 hrt' => ?_
      cases hrt'
      split_ifs with hlocal
      · refine spends_ipRecvLocal hpos hnet hp fun p' hp' => hreg p' ?_
        simpa [hlocal] using hp'
      · exact spends_ipForward (hnet busy hpos) ((ipHton_pkAddr _).trans hp)

lemma spends_netInFrame {fuel dev : ℕ} (ha : pkb.pkAddr = a) (hreg : regular s dev pkb = true) :
    Spends busy a (netInFrame fuel netIn dev pkb) s := by
  refine (keeps_of_reads reads_getDev).seq fun nd s1 hdev => ?_
  simp only [Stack.getDev] at hdev
  split at hdev
  · cases hdev
  rename_i nd' hnd
  cases hdev
  split
  · exact spends_freePkb ha
  · rename_i p hp
    simp only [regular, hnd, Option.bind_some, hp, Option.all_some, Bool.and_eq_true, bne_iff_ne,
      Bool.or_eq_true] at hreg
    have hpa : p.pkAddr = a := by
      simp only [ethInit] at hp
      split_ifs at hp
      cases hp
      exact ha
    dsimp only
    split_ifs with h1 h2 h3
    · exact absurd h1 hreg.1
    · exact spends_arpIn (hnet busy hpos) hpa
    · refine spends_ipIn hpos hnet hpa ?_
      have := hreg.2.resolve_left (fun h => h h3)
      simpa [Option.all_eq_true] using this
    · exact spends_freePkb hpa

omit hpos hnet in
lemma spends_netInWhere (fuel : ℕ) : ∀ busy, 0 ≤ busy → ∀ dev pkb s,
    Spends busy pkb.pkAddr (netInWhere regular fuel dev pkb) s := by
  induction fuel with
  | zero => exact fun busy _ dev pkb s => costsAt_error rfl
  | succ fuel ih =>
    intro busy hpos dev pkb s u s' hrun
    simp only [netInWhere] at hrun
    split_ifs at hrun with hreg
    exact spends_netInFrame hpos ih rfl hreg u s' hrun

end In

section Runs

def Regular (fuel dev : ℕ) (pkb : Pkbuf) (s : Stack) : Prop :=
  netInWhere regular fuel dev pkb s = netIn fuel dev pkb s

def addrs (s : Stack) : List ℕ := (linked s).map Pkbuf.pkAddr

structure Orderly (s : Stack) : Prop where
  sound : Sound 0 s
  once : (addrs s).Nodup
  old : ∀ a ∈ addrs s, a < s.pkbs.next

inductive Run (s0 : Stack) : Stack → Prop
  | start : Run s0 s0
  | frame {s s1 s' : Stack} {fuel dev : ℕ} {pkb : Pkbuf} : Run s0 s →
      Stack.countPkb s = .ok (pkb.pkAddr, s1) → Regular fuel dev pkb s1 →
      netIn fuel dev pkb s1 = .ok ((), s') → Run s0 s'

/-- The buffer is given back, or it is linked in one queue with one reference. -/
def Settled (s : Stack) (a : ℕ) : Prop :=
  s.pkbs.refcnt a = 0 ∧ (addrs s).count a = 0 ∨ s.pkbs.refcnt a = 1 ∧ (addrs s).count a = 1

def stray (s : Stack) : Finset ℕ := (Finset.range s.pkbs.next).filter fun a => 0 < loose s a

variable {s0 s : Stack}

lemma Run.moves (h : Run s0 s) : Moves 0 0 s0 s := by
  induction h with
  | start => exact Graded.refl s0
  | @frame s s1 s' fuel dev pkb _ hcnt hreg hrun ih =>
    have hnew : Moves 0 (-spent pkb.pkAddr) s s1 := costs_countPkb _ _ hcnt
    have hframe : Moves 0 (spent pkb.pkAddr) s1 s' :=
      spends_netInWhere fuel 0 le_rfl dev pkb s1 () s' (hreg.trans hrun)
    have := (ih.trans hnew).trans hframe
    rwa [zero_add, neg_add_cancel] at this

lemma held_apply (s : Stack) (a : ℕ) : held s a = (addrs s).count a := rfl

lemma Orderly.links_le (h : Orderly s) : links s ≤ 1 := by
  intro a
  simp only [links, Pi.add_apply, held_apply, unused, Pi.one_apply]
  split_ifs with hge
  · have hno : a ∉ addrs s := fun hm => (h.old a hm).not_ge hge
    simp [List.count_eq_zero_of_not_mem hno]
  · have := List.nodup_iff_count_le_one.mp h.once a
    omega

lemma Orderly.loose_fresh (h : Orderly s) {a : ℕ} (ha : s.pkbs.next ≤ a) : loose s a = 0 := by
  have hno : a ∉ addrs s := fun hm => (h.old a hm).not_ge ha
  simp [loose, held_apply, h.sound.balanced.fresh a ha, List.count_eq_zero_of_not_mem hno]

lemma Run.loose_eq (h0 : Orderly s0) (h : Run s0 s) : loose s = loose s0 := by
  have := (h.moves h0.sound).2.1
  simpa using this

lemma Run.count_le (h0 : Orderly s0) (h : Run s0 s) (a : ℕ) : (addrs s).count a ≤ 1 := by
  have hle : links s a ≤ links s0 a := by simpa using (h.moves h0.sound).2.2 a
  have hone : links s0 a ≤ 1 := h0.links_le a
  have hpos : 0 ≤ unused s.pkbs a := by
    simp only [unused]
    split_ifs <;> omega
  simp only [links, Pi.add_apply, held_apply] at hle hone
  omega

lemma Run.settled (h0 : Orderly s0) (h : Run s0 s) {a : ℕ} (ha : s0.pkbs.next ≤ a) : Settled s a := by
  have hloose : loose s a = 0 := by rw [h.loose_eq h0, h0.loose_fresh ha]
  have hcnt := h.count_le h0 a
  simp only [loose, Pi.sub_apply, held_apply] at hloose
  rw [Settled]
  omega

lemma Run.live_subset (h0 : Orderly s0) (h : Run s0 s) : s.pkbs.live ⊆ (addrs s).toFinset ∪ stray s0 := by
  intro a ha
  have hbal := (h.moves h0.sound).1.balanced
  have hpos := (Ledger.mem_live hbal.fresh).mp ha
  rw [Finset.mem_union, List.mem_toFinset]
  by_cases hm : a ∈ addrs s
  · exact .inl hm
  · refine .inr ?_
    have hloose : 0 < loose s a := by
      simpa [loose, held_apply, List.count_eq_zero_of_not_mem hm] using hpos
    rw [h.loose_eq h0] at hloose
    refine Finset.mem_filter.mpr ⟨Finset.mem_range.mpr ?_, hloose⟩
    by_contra hge
    rw [h0.loose_fresh (not_lt.mp hge)] at hloose
    exact lt_irrefl _ hloose

theorem frames_settled (h0 : Orderly s0) (h : Run s0 s) : (∀ a, s0.pkbs.next ≤ a → Settled s a) ∧
    s.pkbs.allocs - s.pkbs.frees ≤ (linked s).length + (stray s0).card := by
  refine ⟨fun a ha => h.settled h0 ha, ?_⟩
  rw [(h.moves h0.sound).1.balanced.count]
  have hsub := Finset.card_le_card (h.live_subset h0)
  have hunion := Finset.card_union_le (addrs s).toFinset (stray s0)
  have hlen : (addrs s).toFinset.card ≤ (linked s).length := by
    simpa [addrs] using List.toFinset_card_le (addrs s)
  omega

section Examples

def idle : Stack :=
  { Stack.empty with
    netDevices := [lo, eth]
    rtHead := [⟨0x0100000a, 0xffffffff, 0, RT_LOCALHOST, 0, 0⟩] }

lemma orderly_idle : Orderly idle where
  sound :=
    { balanced := ⟨by decide, fun _ _ => rfl⟩
      arp := fun _ h => absurd h List.not_mem_nil
      inet := fun _ h => absurd h List.not_mem_nil
      fresh := fun _ _ => ⟨rfl, rfl⟩
      user := fun _ _ h => nomatch h }
  once := List.nodup_nil
  old := fun _ h => absurd h List.not_mem_nil

def frameOf (pro : List UInt8) (body : List UInt8) : Pkbuf :=
  { allocPkb 0 (14 + body.length) with pkData := [2, 0, 0, 0, 0, 1, 2, 0, 0, 0, 0, 9] ++ pro ++ body }

def fragmentFrame : Pkbuf :=
  ipSetChecksum (frameOf [8, 0] ([0x45, 0, 0, 28, 0, 7, 0x20, 0, 64, 17, 0, 0, 10, 0, 0, 9, 10, 0, 0, 1] ++
    [1, 2, 3, 4, 5, 6, 7, 8]))

def alloced : Stack := finalState Stack.countPkb idle

def passed (pkb : Pkbuf) : Stack := finalState (netIn 1 1 pkb) alloced

lemma regular_one {s : Stack} {dev : ℕ} {pkb : Pkbuf} (h : regular s dev pkb = true) : Regular 1 dev pkb s := by
  simp only [Regular, netInWhere, netIn, h, if_true]

theorem frames_settled_fragment : (addrs (passed fragmentFrame)).count 0 = 1 ∧
    (∀ a, 0 ≤ a → Settled (passed fragmentFrame) a) ∧
    (passed fragmentFrame).pkbs.allocs - (passed fragmentFrame).pkbs.frees ≤
      (linked (passed fragmentFrame)).length + (stray idle).card := by
  have halloc : Stack.countPkb idle = .ok (fragmentFrame.pkAddr, alloced) := run_of_outcome (by decide +kernel)
  have hrun : netIn 1 1 fragmentFrame alloced = .ok ((), passed fragmentFrame) :=
    run_of_outcome (by decide +kernel)
  exact ⟨by decide +kernel, frames_settled orderly_idle
    (Run.start.frame halloc (regular_one (by decide +kernel)) hrun)⟩

-- `net_in` returns at a RARP frame without `free_pkb`.
theorem rarp_lost : ∃ s s1 s' pkb, Orderly s ∧ Stack.countPkb s = .ok (pkb.pkAddr, s1) ∧
    netIn 1 1 pkb s1 = .ok ((), s') ∧ ¬ Settled s' pkb.pkAddr :=
  ⟨idle, alloced, passed (frameOf [0x80, 0x35] []), frameOf [0x80, 0x35] [], orderly_idle,
    run_of_outcome (by decide +kernel), run_of_outcome (by decide +kernel), by
      rw [Settled]
      decide +kernel⟩

end Examples

end Runs

end Tapip.Net.Frames
