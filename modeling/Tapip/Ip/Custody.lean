import Tapip.Ip.Reassembly
import Tapip.Net.Custody

/-! The references to a packet that the IP layer passes up to the raw socks, to UDP and to ICMP, and to
the fragments of one. -/

namespace Tapip.Ip.Custody

open Foundation.Program Foundation.Tally Foundation.Cost Net Net.Pkb Net.Custody Header Frag Out In
open Tcp (fault)

variable {s' : Stack} {inet : InetSock} {ids : List ℕ} {nport : UInt16} {addr : ℕ} {p : Pkbuf}

variable {busy : ℕ → ℤ} {s : Stack} {pkb : Pkbuf} {a id : ℕ}

lemma costsAt_of_sound {α : Type} {g : α → Grade} {x : Prog Stack α}
    (h : Sound busy s → CostsAt (Moves busy) g x s) : CostsAt (Moves busy) g x s :=
  fun a s' hx hs => h hs a s' hx hs

section Socks

lemma getInet_run (h : getInet id s = .ok (inet, s')) : s' = s ∧ s.socks[id]? = some (some inet) := by
  simp only [getInet] at h
  split at h
  · rename_i hi
    cases h
    exact ⟨rfl, hi⟩
  · cases h

lemma reads_getInet : Respects Eq (getInet id) := fun _ _ _ h => (getInet_run h).1.symm

lemma costsAt_setInet {new : Option InetSock} {d : ℕ → ℤ} (hi : s.socks[id]? = some (some inet))
    (href : 1 ≤ inet.sk.refcnt → ∀ i ∈ new, 1 ≤ i.sk.refcnt)
    (hd : tally Pkbuf.pkAddr (inetQueue new) = tally Pkbuf.pkAddr inet.sk.recvQueue + d) :
    CostsAt (Moves busy) (fun _ => (-d, d)) (setInet id new) s := by
  intro _ s' hrun
  cases hrun
  refine Shifts.relink (fun h => ⟨h.balanced, h.arp, ?_, h.fresh, h.user⟩) rfl fun _ => ?_
  · intro i hm
    rcases List.mem_or_eq_of_mem_set hm with hm | hnew
    · exact h.inet i hm
    · exact href (h.inet inet (List.mem_of_getElem? hi)) i hnew.symm
  · simp only [held_eq, inetLinks, List.set_eq_modify, tally_flatMap_modify _ _ _ hi, hd]
    simp only [inetQueue, Option.elim_some]
    abel

lemma keeps_setInet {inet' : InetSock} (hi : s.socks[id]? = some (some inet))
    (href : 1 ≤ inet.sk.refcnt → 1 ≤ inet'.sk.refcnt) (hqueue : inet'.sk.recvQueue = inet.sk.recvQueue) :
    Keeps busy (setInet id (some inet')) s := by
  have hsame : CostsAt (Moves busy) (fun _ => (-0, 0)) (setInet id (some inet')) s := by
    refine costsAt_setInet hi (fun h i hm => ?_) ?_
    · cases hm
      exact href h
    · rw [add_zero, ← hqueue]
      rfl
  exact hsame.cast fun _ => by rw [neg_zero]; rfl

lemma spends_recvQueueAdd (ha : pkb.pkAddr = a) : Spends busy a (recvQueueAdd id pkb) s := by
  refine (keeps_of_reads reads_getInet).seq fun inet s1 hrun => ?_
  obtain ⟨rfl, hi⟩ := getInet_run hrun
  split_ifs
  · refine costsAt_setInet hi (fun h i hm => ?_) ?_
    · cases hm
      exact h
    · simp only [inetQueue, Option.elim_some, tally_append, tally_cons, tally_nil, add_zero, ha, one]
  · exact costsAt_error rfl

lemma keeps_rawChain : Keeps busy (rawChain pkb ids) s := by
  induction ids generalizing s with
  | nil => exact costsAt_pure rfl
  | cons id rest ih =>
    refine (keeps_of_reads reads_getInet).seq fun inet s1 _ => ?_
    dsimp only
    split_ifs
    · rw [← bind_assoc]
      refine CostsAt.seq ?_ fun _ _ _ => ih
      exact costs_copyPkb.cancel fun _ _ _ => spends_recvQueueAdd rfl
    · exact ih

lemma keeps_rawIn : Keeps busy (rawIn pkb) s := fun u s' h => keeps_rawChain u s' h

lemma keeps_freeSock (href : ∀ inet, s.socks[id]? = some (some inet) → 2 ≤ inet.sk.refcnt) :
    Keeps busy (freeSock id) s := by
  refine (keeps_of_reads reads_getInet).seq fun inet s1 hrun => ?_
  obtain ⟨rfl, hi⟩ := getInet_run hrun
  have := href inet hi
  rw [if_neg (by omega)]
  refine keeps_setInet hi (fun _ => ?_) rfl
  show 1 ≤ inet.sk.refcnt - 1
  omega

lemma udpChain_run {r : Option ℕ} (h : udpChain nport ids s = .ok (r, s')) :
    r = none ∧ s' = s ∨ ∃ id inet, r = some id ∧ s.socks[id]? = some (some inet) ∧
      s' = { s with socks := s.socks.set id (some (setRefcnt (inet.sk.refcnt + 1) inet)) } := by
  induction ids with
  | nil =>
    cases h
    exact .inl ⟨rfl, rfl⟩
  | cons id rest ih =>
    rw [udpChain] at h
    obtain ⟨inet, s1, hget, hrest⟩ := bind_inv h
    obtain ⟨rfl, hi⟩ := getInet_run hget
    split_ifs at hrest
    · obtain ⟨u, s2, hsock, hpure⟩ := bind_inv hrest
      obtain ⟨inet', s3, hget', hset⟩ := bind_inv hsock
      obtain ⟨rfl, hi'⟩ := getInet_run hget'
      obtain rfl : inet = inet' := by simpa using hi.symm.trans hi'
      cases hset
      cases hpure
      exact .inr ⟨id, inet, rfl, hi, rfl⟩
    · exact ih hrest

lemma keeps_udpLookupSock : Keeps busy (udpLookupSock nport) s := by
  intro r s' h
  rcases udpChain_run h with ⟨-, rfl⟩ | ⟨id, inet, -, hi, rfl⟩
  · exact Graded.refl _
  · have hget : Keeps busy (setInet id (some (setRefcnt (inet.sk.refcnt + 1) inet))) s := by
      refine keeps_setInet hi (fun h => ?_) rfl
      show 1 ≤ inet.sk.refcnt + 1
      omega
    exact hget () _ rfl

end Socks

section Upper

lemma icmpEcho_pkAddr (pkb : Pkbuf) : (icmpEcho pkb).pkAddr = pkb.pkAddr := by
  simp [icmpEcho, setIpDst]

variable {netIn : NetIn}
variable (hnet : Takes busy netIn)

include hnet

lemma spends_udpRecv (ha : pkb.pkAddr = a) : Spends busy a (udpRecv netIn pkb) s := by
  refine costsAt_of_sound fun hs => keeps_udpLookupSock.seq fun r s1 hrun => ?_
  rcases udpChain_run hrun with ⟨rfl, rfl⟩ | ⟨id, inet, rfl, hi, rfl⟩
  · exact spends_icmpSend_freePkb hnet ha
  have hlen : id < s.socks.length := (List.getElem?_eq_some_iff.mp hi).1
  have href := hs.inet inet (List.mem_of_getElem? hi)
  refine (keeps_of_reads reads_getInet).seq fun inet₁ s2 hget => ?_
  obtain ⟨rfl, -⟩ := getInet_run hget
  split_ifs
  · exact spends_freePkb ha
  refine (spends_recvQueueAdd ha).finish fun _ s3 hadd => ?_
  obtain ⟨inet₂, s4, hget2, hset⟩ := bind_inv hadd
  obtain ⟨rfl, hi2⟩ := getInet_run hget2
  obtain rfl : setRefcnt (inet.sk.refcnt + 1) inet = inet₂ := by
    simpa [hlen] using hi2
  split_ifs at hset
  · cases hset
    refine keeps_freeSock fun inet₃ hi3 => ?_
    obtain rfl := by simpa [hlen] using hi3
    show 2 ≤ inet.sk.refcnt + 1
    omega
  · cases hset

lemma spends_udpIn (ha : pkb.pkAddr = a) : Spends busy a (udpIn netIn pkb) s := by
  rw [udpIn]
  dsimp only
  split_ifs
  · exact spends_freePkb ha
  · exact spends_freePkb ha
  · exact spends_udpRecv hnet ha

lemma spends_icmpIn (ha : pkb.pkAddr = a) : Spends busy a (icmpIn netIn pkb) s := by
  have hecho : Spends busy a (icmpEchoRequest netIn pkb) s := by
    rw [icmpEchoRequest]
    split_ifs
    · exact spends_freePkb ha
    · exact spends_ipSendOut hnet ((icmpEcho_pkAddr pkb).trans ha)
  rw [icmpIn]
  split_ifs
  · exact spends_freePkb ha
  · exact spends_freePkb ha
  · exact spends_freePkb ha
  · rw [icmpHandler]
    split_ifs
    · exact hecho
    · exact spends_freePkb ha

end Upper

section Frags

open Reassembly

lemma fragSplit_links (pkb : Pkbuf) (fragHead : List Fragment) :
    fragLinks ((fragSplit pkb fragHead).1 ++ (fragSplit pkb fragHead).2.1 :: (fragSplit pkb fragHead).2.2) =
      fragLinks fragHead := by
  rw [fragSplit]
  split
  · rfl
  · rename_i frag after hdrop
    rw [← hdrop, List.takeWhile_append_dropWhile]

lemma ipReass_tally (addr : ℕ) (pkb : Pkbuf) (fragHead : List Fragment) :
    tally Pkbuf.pkAddr (fragLinks (ipReass addr pkb fragHead).fragHead) +
        tally Pkbuf.pkAddr (ipReass addr pkb fragHead).freed =
      tally Pkbuf.pkAddr (fragLinks fragHead) + one pkb.pkAddr := by
  rw [← fragSplit_links pkb fragHead, ipReass]
  generalize fragSplit pkb fragHead = parts
  obtain ⟨before, frag, after⟩ := parts
  simp only
  split
  · rename_i frag' hins
    simp only [fragLinks, List.flatMap_append, List.flatMap_cons, insertFrag_false_fragPkb hins,
      tally_append, tally_cons, tally_nil, one]
    abel
  · rename_i frag' hins
    have hperm := tally_perm Pkbuf.pkAddr (insertFrag_perm hins)
    rw [tally_cons] at hperm
    split_ifs
    · simp only [fragLinks, List.flatMap_append, List.flatMap_cons, tally_append, hperm, one]
      abel
    · simp only [fragLinks, List.flatMap_append, List.flatMap_cons, tally_append, tally_nil, hperm, one]
      abel

lemma reassFrag_pkAddr {frag : Fragment} (h : reassFrag addr frag = some p) : p.pkAddr = addr := by
  simp only [reassFrag] at h
  split_ifs at h
  split at h
  · cases h
  · cases h
    simp [setIpLen, setIpFragoff, allocPkb]

lemma ipReass_pkAddr {fragHead : List Fragment} (h : (ipReass addr pkb fragHead).pkb = some p) : p.pkAddr = addr := by
  simp only [ipReass] at h
  split at h
  · cases h
  · split_ifs at h
    · exact reassFrag_pkAddr h

lemma costs_freePkbs (freed : List Pkbuf) :
    CostsAt (Moves busy) (fun _ => (-tally Pkbuf.pkAddr freed, 0)) (freed.forM Stack.freePkb) s := by
  induction freed generalizing s with
  | nil => exact costsAt_pure (by simp)
  | cons pkb freed ih =>
    refine CostsAt.bind costs_freePkb fun _ s1 _ => ih.cast fun _ => ?_
    simp [gotten, one]

def handed (r : Option Pkbuf) : Grade := r.elim 0 fun p => spent p.pkAddr

def relink (r : Reass) : Prog Stack Unit := do
  (fun s => .ok ((), { s with fragHead := r.fragHead }) : Prog Stack Unit)
  r.freed.forM Stack.freePkb

lemma spends_relink {r : Reass} (hr : ipReass addr pkb s.fragHead = r) (ha : pkb.pkAddr = a) :
    Spends busy a (relink r) s := by
  have htally := ipReass_tally addr pkb s.fragHead
  rw [hr, ha] at htally
  have hset : CostsAt (Moves busy)
      (fun _ => (-(one a - tally Pkbuf.pkAddr r.freed), one a - tally Pkbuf.pkAddr r.freed))
      (fun s => .ok ((), { s with fragHead := r.fragHead }) : Prog Stack Unit) s := by
    intro _ s' h
    cases h
    refine Shifts.relink (fun h => ⟨h.balanced, h.arp, h.inet, h.fresh, h.user⟩) rfl fun _ => ?_
    simp only [held_eq, eq_sub_of_add_eq htally]
    abel
  have hall : CostsAt (Moves busy) (fun _ => (-one a, one a - tally Pkbuf.pkAddr r.freed)) (relink r) s := by
    refine hset.bind fun _ s2 _ => (costs_freePkbs r.freed).cast fun _ => Prod.ext ?_ ?_
    · simp only [Prod.fst_sub]
      abel
    · simp
  exact hall.mono fun _ _ hm => hm.le rfl (sub_le_self _ (tally_nonneg _ _))

lemma costs_reassemble (ha : pkb.pkAddr = a) :
    CostsAt (Moves busy) (fun r => spent a - handed r) (reassemble pkb) s := by
  intro res s' hrun
  simp only [reassemble] at hrun
  generalize hr : ipReass s.pkbs.next pkb s.fragHead = r at hrun
  have hcost : CostsAt (Moves busy) (fun res => spent a - handed res) (do
      if r.pkb.isSome then
        let _ ← Stack.countPkb
      relink r
      return r.pkb) s := by
    cases hp : r.pkb with
    | none =>
      refine (spends_relink hr ha).bind fun _ _ _ => costsAt_pure ?_
      simp [handed]
    | some p =>
      have haddr : p.pkAddr = s.pkbs.next := ipReass_pkAddr (hr ▸ hp)
      refine costs_countPkb.bind fun addr s1 hcnt => ?_
      simp only [Stack.countPkb] at hcnt
      split_ifs at hcnt
      cases hcnt
      refine CostsAt.bind (spends_relink hr ha) fun _ _ _ => costsAt_pure ?_
      simp [handed, haddr]
  refine hcost res s' ?_
  simpa only [relink, bind_assoc] using hrun

end Frags

end Tapip.Ip.Custody
