import Mathlib.Algebra.Order.Pi
import Tapip.Foundation.Cost
import Tapip.Foundation.Tally
import Tapip.Ip.In
import Tapip.Net.ArpAlloc

/-! Who holds the references to the packet buffers: the queues of the stack, and the call that has a
buffer in hand. -/

namespace Tapip.Net.Custody

open Foundation.Program Foundation.Refcount Foundation.Tally Foundation.Cost Pkb Arp ArpAlloc Ip.Header Ip.Frag Ip.Out
open Tcp (fault TcpSock TcpState TcpWorld TcpReassHead)

variable {d : ℕ → ℤ} {dev i fuel : ℕ} {ae : ArpEntry} {pro : UInt16} {ipaddr dst data : UInt32}
  {f : ArpEntry → ArpEntry} {type code : UInt8}

section Queues

def waiting (t : TcpSock) : List Pkbuf := t.rcvReass.map TcpReassHead.pkb ++ t.sk.recvQueue

def arpLinks (arpCache : List ArpEntry) : List Pkbuf := arpCache.flatMap ArpEntry.aeList

def fragLinks (fragHead : List Fragment) : List Pkbuf := fragHead.flatMap Fragment.fragPkb

def inetQueue (inet : Option InetSock) : List Pkbuf := inet.elim [] fun i => i.sk.recvQueue

def inetLinks (socks : List (Option InetSock)) : List Pkbuf := socks.flatMap inetQueue

def tcpLinks (w : TcpWorld) : List Pkbuf :=
  (List.range w.nextSock).flatMap fun id => (w.socks id).elim [] waiting

def linked (s : Stack) : List Pkbuf :=
  arpLinks s.arpCache ++ fragLinks s.fragHead ++ inetLinks s.socks ++ tcpLinks s.tcp

def held (s : Stack) : ℕ → ℤ := tally Pkbuf.pkAddr (linked s)

def loose (s : Stack) : ℕ → ℤ := s.pkbs.refcnt - held s

def unused (l : Ledger) : ℕ → ℤ := fun a => if l.next ≤ a then 1 else 0

def links (s : Stack) : ℕ → ℤ := held s + unused s.pkbs

lemma held_eq (s : Stack) : held s = tally Pkbuf.pkAddr (arpLinks s.arpCache) +
    tally Pkbuf.pkAddr (fragLinks s.fragHead) + tally Pkbuf.pkAddr (inetLinks s.socks) +
      tally Pkbuf.pkAddr (tcpLinks s.tcp) := by
  simp only [held, linked, tally_append]

end Queues

section Socks

-- The user has not closed the sock, and text may still come to wait there.
def opening : TcpState → Bool
  | .synSent | .synRecv | .established => true
  | _ => false

def needed (t : TcpSock) : Bool := opening t.state || !(waiting t).isEmpty

def spare (t : TcpSock) : ℤ := t.sk.refcnt - t.sk.hashed.toInt - t.bhashed.toInt

/-- `busy` counts the segments that are on their way through a TCP sock. -/
structure Sound (busy : ℕ → ℤ) (s : Stack) : Prop where
  balanced : s.pkbs.Balanced
  arp : ∀ ae ∈ s.arpCache, ae.aeState = .free → ae.aeList = []
  inet : ∀ inet, some inet ∈ s.socks → 1 ≤ inet.sk.refcnt
  fresh : ∀ id, s.tcp.nextSock ≤ id → s.tcp.socks id = none ∧ busy id = 0
  user : ∀ id t, s.tcp.socks id = some t → needed t = true → 1 + busy id ≤ spare t

end Socks

variable {busy : ℕ → ℤ} {s : Stack}

section Moves

abbrev Grade := (ℕ → ℤ) × (ℕ → ℤ)

def Shifts (busy busy' : ℕ → ℤ) (g : Grade) (s s' : Stack) : Prop :=
  Sound busy s → Sound busy' s' ∧ loose s' = loose s + g.1 ∧ links s' ≤ links s + g.2

abbrev Moves (busy : ℕ → ℤ) (g : Grade) (s s' : Stack) : Prop := Shifts busy busy g s s'

variable {busy' busy'' : ℕ → ℤ}

lemma Shifts.trans {g k : Grade} {a b c : Stack} (hab : Shifts busy busy' g a b)
    (hbc : Shifts busy' busy'' k b c) : Shifts busy busy'' (g + k) a c := by
  intro h
  obtain ⟨hb, hloose, hlinks⟩ := hab h
  obtain ⟨hc, hloose', hlinks'⟩ := hbc hb
  refine ⟨hc, ?_, ?_⟩
  · rw [hloose', hloose, Prod.fst_add, add_assoc]
  · calc links c ≤ links b + k.2 := hlinks'
      _ ≤ links a + g.2 + k.2 := by gcongr
      _ = links a + (g + k).2 := by rw [Prod.snd_add, add_assoc]

instance : Graded (Moves busy) where
  refl s h := ⟨h, by simp, by simp⟩
  trans := Shifts.trans

def one (a : ℕ) : ℕ → ℤ := Pi.single a 1

def spent (a : ℕ) : Grade := (-one a, one a)

def gotten (a : ℕ) : Grade := (one a, 0)

variable {s' : Stack} {α : Type}

lemma Shifts.relink (hs : Sound busy s → Sound busy' s') (hp : s'.pkbs = s.pkbs)
    (hd : Sound busy s → held s' = held s + d) : Shifts busy busy' (-d, d) s s' := by
  refine fun h => ⟨hs h, ?_, ?_⟩
  · rw [loose, loose, hp, hd h]
    exact (sub_add_eq_sub_sub _ _ _).trans (sub_eq_add_neg _ _)
  · rw [links, links, hp, hd h]
    exact (add_right_comm _ _ _).le

lemma Shifts.same (hs : Sound busy s → Sound busy' s') (hp : s'.pkbs = s.pkbs)
    (hd : Sound busy s → held s' = held s) : Shifts busy busy' 0 s s' := by
  have := Shifts.relink (d := 0) hs hp fun h => by rw [hd h, add_zero]
  rwa [neg_zero] at this

lemma Shifts.le (h : Shifts busy busy' g s s') (h1 : g.1 = k.1) (h2 : g.2 ≤ k.2) : Shifts busy busy' k s s' := by
  intro hs
  obtain ⟨hs', hloose, hlinks⟩ := h hs
  exact ⟨hs', h1 ▸ hloose, hlinks.trans (by gcongr)⟩

lemma one_nonneg (a : ℕ) : 0 ≤ one a := Pi.single_nonneg.mpr zero_le_one

lemma Shifts.spent_of_free (h : Moves busy (-gotten a) s s') : Moves busy (spent a) s s' :=
  h.le rfl (by simpa [gotten, spent] using one_nonneg a)

def lent (a : ℕ) : Grade := (0, one a)

abbrev Keeps (busy : ℕ → ℤ) (x : Prog Stack α) (s : Stack) : Prop := CostsAt (Moves busy) (fun _ => 0) x s

abbrev Spends (busy : ℕ → ℤ) (a : ℕ) (x : Prog Stack Unit) (s : Stack) : Prop :=
  CostsAt (Moves busy) (fun _ => spent a) x s

abbrev Takes (busy : ℕ → ℤ) (netIn : NetIn) : Prop := ∀ dev pkb s, Spends busy pkb.pkAddr (netIn dev pkb) s

lemma Shifts.lent (h : Moves busy 0 s s') (a : ℕ) : Moves busy (lent a) s s' := h.le rfl (one_nonneg a)

end Moves

section Pkbs

lemma sound_pkbs (h : Sound busy s) (hl : l.Balanced) : Sound busy { s with pkbs := l } :=
  ⟨hl, h.arp, h.inet, h.fresh, h.user⟩

lemma unused_alloc (l : Ledger) : unused l.alloc = unused l - one l.next := by
  ext a
  simp only [unused, Ledger.alloc, one, Pi.sub_apply, Pi.single_apply]
  split_ifs <;> omega

lemma costs_countPkb : CostsAt (Moves busy) (fun a => -spent a) Stack.countPkb s := by
  intro a s' hrun h
  simp only [Stack.countPkb] at hrun
  split_ifs at hrun
  cases hrun
  have hcnt : s.pkbs.alloc.refcnt = s.pkbs.refcnt + one s.pkbs.next := by
    ext b
    simp only [Ledger.alloc, one, Function.update_apply, Pi.add_apply, Pi.single_apply]
    split_ifs with hb
    · rw [hb, h.balanced.fresh _ le_rfl, zero_add]
    · rw [add_zero]
  refine ⟨sound_pkbs h h.balanced.alloc, ?_, ?_⟩
  · have : loose { s with pkbs := s.pkbs.alloc } = s.pkbs.alloc.refcnt - held s := rfl
    rw [this, hcnt, loose]
    simp only [spent, Prod.neg_mk, neg_neg]
    abel
  · have : links { s with pkbs := s.pkbs.alloc } = held s + unused s.pkbs.alloc := rfl
    rw [this, unused_alloc, links]
    exact (add_sub_assoc _ _ _).symm.le

lemma costs_allocPkb {size : ℤ} : CostsAt (Moves busy) (fun pkb => -spent pkb.pkAddr) (Stack.allocPkb size) s :=
  costs_countPkb.bind fun _ _ _ => costsAt_pure (sub_self _)

lemma costs_copyPkb : CostsAt (Moves busy) (fun pkb => -spent pkb.pkAddr) (Stack.copyPkb pkb) s :=
  costs_countPkb.bind fun _ _ _ => costsAt_pure (sub_self _)

lemma costs_getPkb : CostsAt (Moves busy) (fun _ => gotten pkb.pkAddr) (Stack.getPkb pkb) s := by
  intro _ s' hrun h
  simp only [Stack.getPkb] at hrun
  split_ifs at hrun with hpos
  cases hrun
  have hcnt : (s.pkbs.get pkb.pkAddr).refcnt = s.pkbs.refcnt + one pkb.pkAddr := by
    ext b
    simp only [Ledger.refcnt_get, one, Pi.add_apply, Pi.single_apply, @eq_comm _ b]
  refine ⟨sound_pkbs h (h.balanced.get (not_le.mp hpos)), ?_, ?_⟩
  · have : loose { s with pkbs := s.pkbs.get pkb.pkAddr } = (s.pkbs.get pkb.pkAddr).refcnt - held s := rfl
    rw [this, hcnt, loose]
    exact add_sub_right_comm _ _ _
  · exact (add_zero (links s)).ge

lemma costs_freePkb : CostsAt (Moves busy) (fun _ => -gotten pkb.pkAddr) (Stack.freePkb pkb) s := by
  intro _ s' hrun h
  simp only [Stack.freePkb] at hrun
  split_ifs at hrun with hpos
  cases hrun
  have hcnt : (s.pkbs.free pkb.pkAddr).refcnt = s.pkbs.refcnt - one pkb.pkAddr := by
    ext b
    simp only [Ledger.refcnt_free (not_le.mp hpos), one, Pi.sub_apply, Pi.single_apply, @eq_comm _ b]
  have hnext : unused (s.pkbs.free pkb.pkAddr) = unused s.pkbs := by
    ext a
    simp only [unused, Ledger.next_free]
  refine ⟨sound_pkbs h (h.balanced.free (not_le.mp hpos)), ?_, ?_⟩
  · have : loose { s with pkbs := s.pkbs.free pkb.pkAddr } = (s.pkbs.free pkb.pkAddr).refcnt - held s := rfl
    rw [this, hcnt, loose]
    simp only [gotten, Prod.neg_mk]
    abel
  · have : links { s with pkbs := s.pkbs.free pkb.pkAddr } = held s + unused (s.pkbs.free pkb.pkAddr) := rfl
    rw [this, hnext, links]
    simp [gotten]

lemma spends_freePkb {pkb : Pkbuf} {a : ℕ} (ha : pkb.pkAddr = a) : Spends busy a (Stack.freePkb pkb) s := by
  subst ha
  exact costs_freePkb.mono fun _ _ => Shifts.spent_of_free

end Pkbs

section Addr

variable (pkb : Pkbuf)

@[simp] lemma setShort_pkAddr (i : ℕ) (v : UInt16) : (setShort i pkb v).pkAddr = pkb.pkAddr := by
  rw [setShort]

@[simp] lemma setInt_pkAddr (i : ℕ) (v : UInt32) : (setInt i pkb v).pkAddr = pkb.pkAddr := by
  rw [setInt]

@[simp] lemma setByte_pkAddr (i : ℕ) (v : UInt8) : (setByte i pkb v).pkAddr = pkb.pkAddr := by
  rw [setByte]

@[simp] lemma ipHton_pkAddr : (ipHton pkb).pkAddr = pkb.pkAddr := by
  simp [ipHton, ipNtoh, setIpLen, setIpId, setIpFragoff]

@[simp] lemma ipSetChecksum_pkAddr : (ipSetChecksum pkb).pkAddr = pkb.pkAddr := by
  simp [ipSetChecksum, setIpCksum]

@[simp] lemma ipFill_pkAddr (tos : UInt8) (len id : UInt16) (ttl pro : UInt8) (dst : UInt32) :
    (ipFill pkb tos len id ttl pro dst).pkAddr = pkb.pkAddr := by
  simp [ipFill, setIpDst, setIpFragoff, setIpId, setIpLen]

@[simp] lemma arpHton_pkAddr : (arpHton pkb).pkAddr = pkb.pkAddr := by
  simp [arpHton]

@[simp] lemma arpAnswer_pkAddr (nd : Netdev) : (arpAnswer nd pkb).pkAddr = pkb.pkAddr := by
  simp [arpAnswer, arpNtoh]

@[simp] lemma arpQuestion_pkAddr (nd : Netdev) (ae : ArpEntry) : (arpQuestion nd ae pkb).pkAddr = pkb.pkAddr := by
  rw [arpQuestion]

@[simp] lemma icmpFill_pkAddr (type code : UInt8) (data : UInt32) (pkbIn : Pkbuf) :
    (icmpFill pkb type code data pkbIn).pkAddr = pkb.pkAddr := by
  rw [icmpFill]

end Addr

section Reads

lemma reads_fault {α : Type} {e : Fault} : Respects Eq (fault e : Prog Stack α) :=
  fun _ _ _ h => nomatch h

lemma getDev_run {s s' : Stack} (h : Stack.getDev dev s = .ok (nd, s')) : s' = s ∧ s.netDevices[dev]? = some nd := by
  simp only [Stack.getDev] at h
  split at h
  · cases h
  · rename_i nd' hi
    cases h
    exact ⟨rfl, hi⟩

lemma reads_getDev : Respects Eq (Stack.getDev dev) := fun _ _ _ h => (getDev_run h).1.symm

lemma getAe_run {s s' : Stack} (h : getAe i s = .ok (ae, s')) : s' = s ∧ s.arpCache[i]? = some ae := by
  simp only [getAe] at h
  split at h
  · cases h
  · rename_i ae' hi
    cases h
    exact ⟨rfl, hi⟩

lemma reads_getAe : Respects Eq (getAe i) := fun _ _ _ h => (getAe_run h).1.symm

lemma reads_aeDevice : Respects Eq (aeDevice ae) := by
  rw [aeDevice]
  split
  · exact reads_fault
  · exact Respects.pure (fun _ => rfl) _

lemma reads_arpLookup : Respects Eq (arpLookup pro ipaddr) :=
  fun _ _ _ h => (ok_inj h).2

lemma reads_rtdst {pkb : Pkbuf} : Respects Eq (rtdst pkb) := by
  rw [rtdst]
  split
  · exact reads_fault
  · exact Respects.pure (fun _ => rfl) _

end Reads

variable {netIn : NetIn} {a : ℕ}

section Tx

variable {pkb : Pkbuf}

lemma keeps_of_reads {α : Type} {x : Prog Stack α} (h : Respects Eq x) : Keeps busy x s :=
  costs_of_reads h s

lemma keeps_of_sound (hs : s'.pkbs = s.pkbs) (ha : s'.arpCache = s.arpCache)
    (hf : s'.fragHead = s.fragHead) (hi : s'.socks = s.socks) (ht : s'.tcp = s.tcp) :
    Moves busy 0 s s' := by
  refine Shifts.same (fun h => ?_) hs fun _ => by rw [held_eq, held_eq, ha, hf, hi, ht]
  exact ⟨hs ▸ h.balanced, ha ▸ h.arp, hi ▸ h.inet, ht ▸ h.fresh, ht ▸ h.user⟩

variable (hnet : Takes busy netIn)

include hnet

lemma costs_xmit : CostsAt (Moves busy) (fun _ => lent pkb.pkAddr) (xmit netIn dev pkb) s := by
  rw [xmit]
  split_ifs
  · refine costs_getPkb.bind fun _ s1 _ => (hnet dev pkb s1).cast fun _ => ?_
    simp [spent, lent, gotten]
  · intro _ s' h
    cases h
    apply Shifts.lent
    exact keeps_of_sound rfl rfl rfl rfl rfl

lemma spends_netdevTx {len : ℕ} {proto : UInt16} {dst : List UInt8} (ha : pkb.pkAddr = a) :
    Spends busy a (netdevTx netIn dev pkb len proto dst) s := by
  subst ha
  rw [netdevTx]
  refine (keeps_of_reads reads_getDev).seq fun nd s1 _ => ?_
  refine (costs_xmit hnet).bind fun _ s2 _ => costs_freePkb.cast fun _ => ?_
  simp [spent, lent, gotten]

end Tx

section Arp

lemma mem_modify {α : Type} {l : List α} {f : α → α} {b : α} (h : b ∈ l.modify i f) :
    b ∈ l ∨ ∃ a, l[i]? = some a ∧ b = f a := by
  obtain ⟨j, hj⟩ := List.getElem?_of_mem h
  rw [List.getElem?_modify] at hj
  obtain ⟨a, ha, rfl⟩ := Option.map_eq_some_iff.mp hj
  split_ifs with hij
  · exact .inr ⟨a, hij ▸ ha, rfl⟩
  · exact .inl (List.mem_of_getElem? ha)

lemma costsAt_modifyAe (hi : s.arpCache[i]? = some ae)
    (hfree : (ae.aeState = .free → ae.aeList = []) → (f ae).aeState = .free → (f ae).aeList = [])
    (hd : tally Pkbuf.pkAddr (f ae).aeList = tally Pkbuf.pkAddr ae.aeList + d) :
    CostsAt (Moves busy) (fun _ => (-d, d)) (modifyAe i f) s := by
  intro _ s' hrun
  cases hrun
  refine Shifts.relink (fun h => ⟨h.balanced, ?_, h.inet, h.fresh, h.user⟩) rfl fun _ => ?_
  · intro ae' hm hf
    rcases mem_modify hm with hm | ⟨ae0, hi', rfl⟩
    · exact h.arp ae' hm hf
    · cases Option.mem_unique hi hi'
      exact hfree (h.arp ae (List.mem_of_getElem? hi)) hf
  · simp only [held_eq, arpLinks, tally_flatMap_modify _ _ f hi, hd]
    abel

lemma keeps_modifyAe (hlist : ∀ ae, (f ae).aeList = ae.aeList)
    (hstate : ∀ ae, (f ae).aeState = .free → ae.aeState = .free) :
    Keeps busy (modifyAe i f) s := by
  cases hi : s.arpCache[i]? with
  | none =>
    intro _ s' hrun
    cases hrun
    have hsame : s.arpCache.modify i f = s.arpCache := List.modify_eq_self (List.getElem?_eq_none_iff.mp hi)
    exact keeps_of_sound rfl hsame rfl rfl rfl
  | some ae =>
    have hsame : CostsAt (Moves busy) (fun _ => (-0, 0)) (modifyAe i f) s :=
      costsAt_modifyAe hi (fun h hf => (hlist ae).trans (h (hstate ae hf))) (by rw [hlist, add_zero])
    exact hsame.cast fun _ => by rw [neg_zero]; rfl

lemma keeps_arpAlloc : Keeps busy arpAlloc s := by
  intro a s' h
  obtain ⟨-, rfl, -⟩ | ⟨i, ae, -, hi, hfree, rfl⟩ := arpAlloc_inv h
  · exact Graded.refl _
  · intro hs
    have hlist := hs.arp ae (List.mem_of_getElem? hi) hfree
    have hmod : CostsAt (Moves busy) (fun _ => (-0, 0)) (modifyAe i arpInit) s :=
      costsAt_modifyAe hi (fun _ _ => rfl) (by rw [hlist, add_zero]; rfl)
    have hnext : Moves busy 0 { s with arpCache := s.arpCache.set i (arpInit ae) }
        { s with arpCache := s.arpCache.set i (arpInit ae), arpNext := (i + 1) % ARP_CACHE_SZ } :=
      keeps_of_sound rfl rfl rfl rfl rfl
    have hmoves := Graded.trans (hmod _ _ (modifyAe_run arpInit hi)) hnext
    rw [neg_zero] at hmoves
    exact hmoves hs

lemma keeps_arpInsert : Keeps busy (arpInsert nd pro ipaddr hwaddr) s := by
  refine keeps_arpAlloc.seq fun a s1 _ => ?_
  cases a with
  | none => exact costsAt_pure rfl
  | some i => exact keeps_modifyAe (fun _ => rfl) fun _ h => nomatch h

variable {pkb : Pkbuf} (hnet : Takes busy netIn)

include hnet

lemma keeps_arpRequest : Keeps busy (arpRequest netIn i) s := by
  refine costs_allocPkb.cancel fun pkb s1 _ => ?_
  refine (keeps_of_reads reads_getAe).seq fun ae s2 _ => ?_
  refine (keeps_of_reads reads_aeDevice).seq fun dev s3 _ => ?_
  refine (keeps_of_reads reads_getDev).seq fun nd s4 _ => ?_
  exact spends_netdevTx hnet (arpQuestion_pkAddr pkb nd ae)

lemma keeps_arpQueueSend : Keeps busy (arpQueueSend netIn i fuel) s := by
  induction fuel generalizing s with
  | zero => exact keeps_of_reads reads_fault
  | succ fuel ih =>
    refine (keeps_of_reads reads_getAe).seq fun ae s1 hae => ?_
    obtain ⟨rfl, hi⟩ := getAe_run hae
    split
    · exact costsAt_pure rfl
    · rename_i pkb rest hlist
      have hpop : CostsAt (Moves busy) (fun _ => (- -one pkb.pkAddr, -one pkb.pkAddr))
          (modifyAe i fun ae => { ae with aeList := rest }) s1 := by
        refine costsAt_modifyAe hi (fun hf hs => ?_) ?_
        · rw [hf hs] at hlist
          cases hlist
        · rw [hlist, tally_cons, add_comm, ← one, neg_add_cancel_left]
      refine CostsAt.cancel (g := fun _ => spent pkb.pkAddr) hpop fun _ s2 _ => ?_
      refine (keeps_of_reads reads_aeDevice).seq fun dev s3 _ => ?_
      exact (spends_netdevTx hnet rfl).finish fun _ s4 _ => ih

lemma spends_arpReply (ha : pkb.pkAddr = a) : Spends busy a (arpReply netIn dev pkb) s := by
  refine (keeps_of_reads reads_getDev).seq fun nd s1 _ => ?_
  exact spends_netdevTx hnet ((arpAnswer_pkAddr pkb nd).trans ha)

lemma keeps_arpLearn : Keeps busy (arpLearn fuel netIn dev pkb) s := by
  refine (keeps_of_reads reads_arpLookup).seq fun a s1 _ => ?_
  have hdone : ∀ i s, Keeps busy (modifyAe i fun ae => { ae with aeState := .resolved, aeTtl := ARP_TIMEOUT }) s :=
    fun i s => keeps_modifyAe (fun _ => rfl) fun _ h => nomatch h
  cases a with
  | none =>
    dsimp only
    split_ifs
    · exact keeps_arpInsert
    · exact costsAt_pure rfl
  | some i =>
    have hhw : Keeps busy (modifyAe i fun ae => { ae with aeHwaddr := arpSha pkb }) s1 :=
      keeps_modifyAe (fun _ => rfl) fun _ h => h
    refine hhw.seq fun _ s2 _ => ?_
    refine (keeps_of_reads reads_getAe).seq fun ae s3 _ => ?_
    dsimp only
    split_ifs
    · exact (keeps_arpQueueSend hnet).seq fun _ s4 _ => hdone i s4
    · exact hdone i s3

lemma spends_arpRecv (ha : pkb.pkAddr = a) : Spends busy a (arpRecv fuel netIn dev pkb) s := by
  refine (keeps_of_reads reads_getDev).seq fun nd s1 _ => ?_
  split_ifs
  · exact spends_freePkb ha
  · exact spends_freePkb ha
  · exact (keeps_arpLearn hnet).seq fun _ _ _ => spends_arpReply hnet ha
  · exact (keeps_arpLearn hnet).seq fun _ _ _ => spends_freePkb ha

lemma spends_arpIn (ha : pkb.pkAddr = a) : Spends busy a (arpIn fuel netIn dev pkb) s := by
  rw [arpIn]
  dsimp only
  split_ifs
  · exact spends_freePkb ha
  · exact spends_freePkb ha
  · exact spends_freePkb ha
  · exact spends_freePkb ((arpHton_pkAddr pkb).trans ha)
  · exact spends_freePkb ((arpHton_pkAddr pkb).trans ha)
  · exact spends_arpRecv hnet ((arpHton_pkAddr pkb).trans ha)

end Arp

section Send

variable {pkb : Pkbuf}

lemma spends_enqueue (hi : s.arpCache[i]? = some ae)
    (hwait : (f ae).aeState = .waiting) (hlist : (f ae).aeList = ae.aeList ++ [pkb])
    (ha : pkb.pkAddr = a) : Spends busy a (modifyAe i f) s := by
  refine costsAt_modifyAe hi (fun _ hf => ?_) ?_
  · rw [hwait] at hf
    cases hf
  · rw [hlist, tally_append, tally_cons, tally_nil, add_zero, ha, one]

lemma rtOutput_run (h : rtOutput pkb s = .ok (r, s')) : s' = s ∧ ∀ p ∈ r, p.pkAddr = pkb.pkAddr := by
  simp only [rtOutput] at h
  split at h
  · cases h
    exact ⟨rfl, by simp⟩
  split at h
  · cases h
  · cases h
    refine ⟨rfl, fun p hp => ?_⟩
    cases hp
    exact setInt_pkAddr _ _ _

lemma reads_rtOutput : Respects Eq (rtOutput pkb) := fun _ _ _ h => (rtOutput_run h).1.symm

lemma keeps_nextIpid : Keeps busy nextIpid s := by
  intro a s' h
  cases h
  exact keeps_of_sound rfl rfl rfl rfl rfl

variable (hnet : Takes busy netIn)

include hnet

lemma spends_arpWait (ha : pkb.pkAddr = a) : Spends busy a (arpWait netIn dev dst pkb) s := by
  refine keeps_arpAlloc.seq fun r s1 hrun => ?_
  obtain ⟨rfl, -, -⟩ | ⟨i, ae, rfl, hi, -, rfl⟩ := arpAlloc_inv hrun
  · exact spends_freePkb ha
  · exact (spends_enqueue (set_get hi (arpInit ae)) rfl rfl ha).finish fun _ _ _ => keeps_arpRequest hnet

lemma spends_ipSendDev (ha : pkb.pkAddr = a) : Spends busy a (ipSendDev netIn dev pkb) s := by
  refine (keeps_of_reads reads_rtdst).seq fun rt s1 _ => ?_
  split_ifs
  · exact (keeps_of_reads reads_getDev).seq fun _ _ _ => spends_netdevTx hnet ha
  · refine (keeps_of_reads reads_arpLookup).seq fun r s2 _ => ?_
    cases r with
    | none => exact spends_arpWait hnet ha
    | some i =>
      refine (keeps_of_reads reads_getAe).seq fun ae s3 hae => ?_
      obtain ⟨rfl, hi⟩ := getAe_run hae
      split_ifs with hwait
      · exact spends_enqueue hi hwait rfl ha
      · exact spends_netdevTx hnet ha

lemma keeps_sendFrags {frags : List Pkbuf} : Keeps busy (sendFrags netIn dev frags) s := by
  induction frags generalizing s with
  | nil => exact costsAt_pure rfl
  | cons fragpkb frags ih =>
    exact costs_allocPkb.cancel fun pkb _ _ => (spends_ipSendDev hnet rfl).finish fun _ _ _ => ih

lemma spends_ipSendFrag (ha : pkb.pkAddr = a) : Spends busy a (Ip.Out.ipSendFrag netIn dev pkb) s := by
  refine (keeps_of_reads reads_getDev).seq fun nd s1 _ => ?_
  split
  · exact costsAt_error rfl
  · exact (keeps_sendFrags hnet).seq fun _ _ _ => spends_freePkb ha

lemma spends_ipSendRoute (ha : pkb.pkAddr = a) : Spends busy a (ipSendRoute netIn dev pkb) s := by
  refine (keeps_of_reads reads_getDev).seq fun nd s1 _ => ?_
  split_ifs
  · exact spends_ipSendFrag hnet ha
  · exact spends_ipSendDev hnet ha

lemma spends_ipSendOut (ha : pkb.pkAddr = a) : Spends busy a (ipSendOut netIn pkb) s := by
  have hsend : ∀ {p : Pkbuf} {s : Stack}, p.pkAddr = a → Spends busy a (do
      let rt ← rtdst (ipSetChecksum p)
      ipSendRoute netIn rt.rtDev (ipSetChecksum p)) s := fun hp =>
    (keeps_of_reads reads_rtdst).seq fun _ _ _ =>
      spends_ipSendRoute hnet ((ipSetChecksum_pkAddr _).trans hp)
  rw [ipSendOut]
  dsimp only
  split_ifs
  · exact CostsAt.seq (costsAt_pure rfl) fun r s1 hrun => by
      cases hrun
      exact hsend ha
  · refine (keeps_of_reads reads_rtOutput).seq fun r s1 hrun => ?_
    obtain ⟨-, hr⟩ := rtOutput_run hrun
    cases r with
    | none => exact spends_freePkb ha
    | some p => exact hsend ((hr p rfl).trans ha)

lemma spends_ipSendInfo {tos ttl pro : UInt8} {len : UInt16} (ha : pkb.pkAddr = a) :
    Spends busy a (ipSendInfo netIn pkb tos len ttl pro dst) s :=
  keeps_nextIpid.seq fun _ _ _ => spends_ipSendOut hnet ((ipFill_pkAddr _ _ _ _ _ _ _).trans ha)

lemma keeps_icmpSend : Keeps busy (icmpSend netIn type code data pkb) s := by
  rw [icmpSend]
  split_ifs
  · exact costs_allocPkb.cancel fun _ _ _ => spends_ipSendInfo hnet (icmpFill_pkAddr _ _ _ _ _)
  · exact costsAt_pure rfl

lemma spends_icmpSend_freePkb (ha : pkb.pkAddr = a) :
    Spends busy a (do icmpSend netIn type code data pkb; Stack.freePkb pkb) s :=
  (keeps_icmpSend hnet).seq fun _ _ _ => spends_freePkb ha

lemma costs_rtInput (ha : pkb.pkAddr = a) :
    CostsAt (Moves busy) (fun r => if r.isSome then 0 else spent a) (rtInput netIn pkb) s := by
  intro r s' hrun
  simp only [rtInput] at hrun
  split at hrun
  · have hdrop : CostsAt (Moves busy) (fun r : Option Pkbuf => if r.isSome then 0 else spent a) (do
        icmpSend netIn ICMP_T_DESTUNREACH ICMP_NET_UNREACH 0 (ipHton pkb)
        Stack.freePkb (ipHton pkb)
        return none) s := by
      refine (keeps_icmpSend hnet).seq fun _ s1 _ => ?_
      exact (spends_freePkb ((ipHton_pkAddr pkb).trans ha)).bind fun _ _ _ => costsAt_pure (by simp)
    exact hdrop r s' hrun
  · cases hrun
    exact Graded.refl s

lemma keeps_ipRedirect {rt : RtEntry} : Keeps busy (ipRedirect netIn rt pkb) s := by
  intro u s' hrun
  simp only [ipRedirect] at hrun
  split_ifs at hrun
  · exact keeps_icmpSend hnet u s' hrun
  · cases hrun
    exact Graded.refl s

lemma spends_ipForward (ha : pkb.pkAddr = a) : Spends busy a (ipForward netIn pkb) s := by
  refine (keeps_of_reads reads_rtdst).seq fun rt s1 _ => ?_
  have ha' : (ipSetChecksum (setByte 22 pkb (ipTtl pkb - 1))).pkAddr = a := by
    rw [ipSetChecksum_pkAddr, setByte_pkAddr, ha]
  split
  · exact spends_icmpSend_freePkb hnet ha
  · refine (keeps_ipRedirect hnet).seq fun _ s2 _ => ?_
    refine (keeps_of_reads reads_getDev).seq fun nd s3 _ => ?_
    split_ifs
    · exact spends_icmpSend_freePkb hnet ha'
    · exact spends_ipSendFrag hnet ha'
    · exact spends_ipSendDev hnet ha'

end Send

end Tapip.Net.Custody
