import Tapip.Foundation.Hlist
import Tapip.Tcp.World

/-! The hash tables of connections and of listening socks, with the links in the socks
(include/tcp_hash.h, socket/sock.c, tcp/tcp_sock.c). -/

namespace Tapip.Tcp.Demux

open Net.ByteOrder Foundation.Program Foundation.Hlist

def TCP_EHASH_MASK : UInt32 := 0x3f

def TCP_LHASH_MASK : UInt16 := 0x1f

def tcpEhashfn (src dst : UInt32) (srcPort dstPort : UInt16) : UInt32 :=
  let hash := (src ^^^ srcPort.toUInt32) ^^^ (dst ^^^ dstPort.toUInt32)
  let hash := hash ^^^ (hash >>> 16)
  let hash := hash ^^^ (hash >>> 8)
  hash &&& TCP_EHASH_MASK

def tcpLhashfn (nport : UInt16) : UInt16 := ntohs nport &&& TCP_LHASH_MASK

inductive Head
  | etable (hash : UInt32)
  | ltable (hash : UInt16)
deriving DecidableEq

structure Tables where
  socks : ℕ → Option TcpSock
  links : Hlists Head ℕ

section Tables

def getSk (id : ℕ) : Prog Tables TcpSock := fun s =>
  match s.socks id with
  | none => .error .useAfterFree
  | some tsk => .ok (tsk, s)

def putSk (id : ℕ) (tsk : Option TcpSock) : Prog Tables Unit := fun s =>
  .ok ((), { s with socks := Function.update s.socks id tsk })

def setLinks (f : Hlists Head ℕ → Hlists Head ℕ) : Prog Tables Unit := fun s =>
  .ok ((), { s with links := f s.links })

def getSock (id : ℕ) : Prog Tables Unit := do
  let tsk ← getSk id
  putSk id (some (setRefcnt (tsk.sk.refcnt + 1) tsk))

def freeSock (id : ℕ) : Prog Tables Unit := do
  let tsk ← getSk id
  putSk id (if tsk.sk.refcnt - 1 ≤ 0 then none else some (setRefcnt (tsk.sk.refcnt - 1) tsk))

def sockAddHash (id : ℕ) (head : Head) : Prog Tables Unit := do
  getSock id
  setLinks fun m => m.addHead head id

def sockDelHash (id : ℕ) : Prog Tables Unit := fun s =>
  if s.links.unhashed id then .ok ((), s)
  else (do
    setLinks fun m => m.del id
    freeSock id) s

def tests (socks : ℕ → Option TcpSock) (test : TcpSock → Bool) (id : ℕ) : Except Fault Bool :=
  match socks id with
  | none => .error .useAfterFree
  | some tsk => .ok (test tsk)

def hlistForEachSock (test : TcpSock → Bool) (fuel : ℕ) (head : Head) : Prog Tables (Option ℕ) := fun s =>
  (s.links.search (tests s.socks test) fuel (.first head)).map (·, s)

def ends (t : TcpSock) : UInt32 × UInt32 × UInt16 × UInt16 :=
  (t.sk.skSaddr, t.sk.skDaddr, t.sk.skSport, t.sk.skDport)

def tcpEhashConflict (fuel : ℕ) (head : Head) (tsk : TcpSock) : Prog Tables Bool := do
  let found ← hlistForEachSock (fun tmp => decide (ends tsk = ends tmp)) fuel head
  return found.isSome

def ehash (t : TcpSock) : UInt32 := tcpEhashfn t.sk.skSaddr t.sk.skDaddr t.sk.skSport t.sk.skDport

def tcpHash (fuel id : ℕ) : Prog Tables Bool := do
  let tsk ← getSk id
  if tsk.state = .closed then return false
  else if tsk.state = .listen then
    sockAddHash id (.ltable (tcpLhashfn tsk.sk.skSport))
    return true
  else if ← tcpEhashConflict fuel (.etable (ehash tsk)) tsk then return false
  else
    sockAddHash id (.etable (ehash tsk))
    return true

def tcpUnhash (id : ℕ) : Prog Tables Unit := do
  sockDelHash id
  -- the hash number is reset after the reference is given back
  let _ ← getSk id

def found (id : Option ℕ) : Prog Tables (Option ℕ) :=
  match id with
  | none => return none
  | some id => do
    getSock id
    return some id

def tcpLookupSockEstablish (fuel : ℕ) (src dst : UInt32) (srcPort dstPort : UInt16) : Prog Tables (Option ℕ) := do
  found (← hlistForEachSock (fun t => t.sk.skSaddr = dst && t.sk.skDaddr = src &&
    t.sk.skSport = dstPort && t.sk.skDport = srcPort) fuel (.etable (tcpEhashfn src dst srcPort dstPort)))

def tcpLookupSockListen (fuel : ℕ) (addr : UInt32) (nport : UInt16) : Prog Tables (Option ℕ) := do
  found (← hlistForEachSock (fun t => (t.sk.skSaddr = 0 || t.sk.skSaddr = addr) && t.sk.skSport = nport)
    fuel (.ltable (tcpLhashfn nport)))

def tcpLookupSock (fuel : ℕ) (src dst : UInt32) (srcPort dstPort : UInt16) : Prog Tables (Option ℕ) := do
  match ← tcpLookupSockEstablish fuel src dst srcPort dstPort with
  | some id => return some id
  | none => tcpLookupSockListen fuel dst dstPort

/-- Calls of `tcp_hash`, where `ok` holds, and of `tcp_unhash`. Meanwhile everything about the socks
may change, but not the ends of those that are linked. -/
inductive Reached (ok : Tables → ℕ → Prop) : Tables → Prop
  | init {socks : ℕ → Option TcpSock} : Reached ok ⟨socks, .empty⟩
  | hash {s s' : Tables} {fuel id : ℕ} {r : Bool} : Reached ok s → ok s id →
      tcpHash fuel id s = .ok (r, s') → Reached ok s'
  | unhash {s s' : Tables} {id : ℕ} : Reached ok s → tcpUnhash id s = .ok ((), s') → Reached ok s'
  | change {s : Tables} {socks : ℕ → Option TcpSock} : Reached ok s →
      (∀ id t, s.links.unhashed id = false → s.socks id = some t →
        ∃ t', socks id = some t' ∧ ends t' = ends t) → Reached ok { s with socks := socks }

end Tables

lemma tcpEhashfn_comm (src dst : UInt32) (srcPort dstPort : UInt16) :
    tcpEhashfn dst src dstPort srcPort = tcpEhashfn src dst srcPort dstPort := by
  simp only [tcpEhashfn, UInt32.xor_comm (dst ^^^ _)]

variable {s : Tables} {chains : Head → List ℕ}

section Invariant

def Home (t : TcpSock) : Head → Prop
  | .etable hash => hash = ehash t
  | .ltable hash => hash = tcpLhashfn t.sk.skSport

structure Filed (s : Tables) (chains : Head → List ℕ) : Prop where
  rep : Rep s.links chains
  home : ∀ {k i}, i ∈ chains k → ∃ t, s.socks i = some t ∧ Home t k
  distinct : ∀ {a b i j t u}, i ∈ chains (.etable a) → j ∈ chains (.etable b) → s.socks i = some t →
    s.socks j = some u → ends t = ends u → i = j

variable {s' : Tables} {id fuel : ℕ} {t : TcpSock}

lemma home_congr {u : TcpSock} (h : ends u = ends t) (k : Head) : Home u k ↔ Home t k := by
  simp only [ends, Prod.mk.injEq] at h
  cases k <;> simp [Home, ehash, h]

lemma Filed.socks {socks : ℕ → Option TcpSock} (h : Filed s chains)
    (hs : ∀ i t, (∃ k, i ∈ chains k) → s.socks i = some t → ∃ t', socks i = some t' ∧ ends t' = ends t) :
    Filed { s with socks := socks } chains := by
  have hback : ∀ {k i t'}, i ∈ chains k → socks i = some t' → ∃ t, s.socks i = some t ∧ ends t' = ends t := by
    intro k i t' hi ht'
    obtain ⟨t, ht, -⟩ := h.home hi
    obtain ⟨u, hu, he⟩ := hs i t ⟨k, hi⟩ ht
    cases Option.mem_unique ht' hu
    exact ⟨t, ht, he⟩
  refine ⟨h.rep, fun {k i} hi => ?_, fun {a b i j t u} hi hj ht hu he => ?_⟩
  · obtain ⟨t, ht, hk⟩ := h.home hi
    obtain ⟨t', ht', he⟩ := hs i t ⟨k, hi⟩ ht
    exact ⟨t', ht', (home_congr he k).mpr hk⟩
  · obtain ⟨t0, ht0, he1⟩ := hback hi ht
    obtain ⟨u0, hu0, he2⟩ := hback hj hu
    exact h.distinct hi hj ht0 hu0 (he1.symm.trans (he.trans he2))

lemma search_run {k : Head} (h : Rep s.links chains) (hl : ∀ i ∈ chains k, ∃ t, s.socks i = some t)
    (test : TcpSock → Bool) (hf : (chains k).length < fuel) :
    hlistForEachSock test fuel k s = .ok ((chains k).find? fun i => (s.socks i).any test, s) := by
  have hs : s.links.search (tests s.socks test) fuel (.first k) =
      .ok ((chains k).find? fun i => (s.socks i).any test) := by
    refine (h.chain k).search_eq (fun i hi => ?_) hf
    obtain ⟨t, ht⟩ := hl i hi
    simp [tests, ht]
  simp [hlistForEachSock, hs, Except.map]

lemma Filed.search (h : Filed s chains) (test : TcpSock → Bool) (k : Head) (hf : (chains k).length < fuel) :
    hlistForEachSock test fuel k s = .ok ((chains k).find? fun i => (s.socks i).any test, s) :=
  search_run h.rep (fun _ hi => (h.home hi).imp fun _ ht => ht.1) test hf

lemma Filed.search_inv (h : Filed s chains) {test : TcpSock → Bool} {k : Head} {r : Option ℕ}
    (hr : hlistForEachSock test fuel k s = .ok (r, s')) :
    s' = s ∧ r = (chains k).find? fun i => (s.socks i).any test := by
  cases hs : s.links.search (tests s.socks test) fuel (.first k) with
  | error e => simp [hlistForEachSock, hs, Except.map] at hr
  | ok r' =>
    simp only [hlistForEachSock, hs, Except.map] at hr
    cases hr
    refine ⟨rfl, (h.rep.chain k).search_inv (fun i hi => ?_) hs⟩
    obtain ⟨t, ht, -⟩ := h.home hi
    simp [tests, ht]

lemma getSk_run (ht : s.socks id = some t) : getSk id s = .ok (t, s) := by
  simp [getSk, ht]

lemma getSk_inv (hrun : getSk id s = .ok (t, s')) : s.socks id = some t ∧ s' = s := by
  simp only [getSk] at hrun
  split at hrun
  · simp at hrun
  · rename_i u hu
    cases hrun
    exact ⟨hu, rfl⟩

lemma Filed.addHash (h : Filed s chains) {k : Head} (hu : s.links.unhashed id = true) (ht : s.socks id = some t)
    (hk : Home t k)
    (hfree : ∀ a b i u, k = .etable a → i ∈ chains (.etable b) → s.socks i = some u → ends u ≠ ends t)
    (hrun : sockAddHash id k s = .ok ((), s')) : Filed s' (Function.update chains k (id :: chains k)) := by
  have hout := h.rep.unhashed_iff.mp hu
  rw [sockAddHash, getSock, bind_assoc, bind_run (getSk_run ht)] at hrun
  cases hrun
  set t' := setRefcnt (t.sk.refcnt + 1) t with ht'
  have hold : ∀ {i j}, i ∈ chains j → Function.update s.socks id (some t') i = s.socks i := by
    intro i j hi
    have hne : i ≠ id := fun he => hout j (he ▸ hi)
    exact Function.update_of_ne hne _ _
  have hself : Function.update s.socks id (some t') id = some t' := Function.update_self _ _ _
  have hmem : ∀ {j i}, i ∈ Function.update chains k (id :: chains k) j → i = id ∧ j = k ∨ i ∈ chains j := by
    intro j i hi
    by_cases hj : j = k
    · subst hj
      rw [Function.update_self] at hi
      exact (List.mem_cons.mp hi).imp_left fun hi => ⟨hi, rfl⟩
    · rw [Function.update_of_ne hj] at hi
      exact .inr hi
  refine ⟨h.rep.addHead hout, fun {j i} hi => ?_, fun {a b i j u v} hi hj hiu hjv he => ?_⟩
  · rcases hmem hi with ⟨rfl, rfl⟩ | hi
    · exact ⟨t', hself, hk⟩
    · obtain ⟨u, hu, hj⟩ := h.home hi
      exact ⟨u, (hold hi).trans hu, hj⟩
  · rcases hmem hi with ⟨rfl, hka⟩ | hi' <;> rcases hmem hj with ⟨h1, hkb⟩ | hj'
    · exact h1.symm
    · cases Option.mem_unique hself hiu
      exact absurd he.symm (hfree a b j v hka.symm hj' ((hold hj').symm.trans hjv))
    · subst h1
      cases Option.mem_unique hself hjv
      exact absurd he (hfree b a i u hkb.symm hi' ((hold hi').symm.trans hiu))
    · exact h.distinct hi' hj' ((hold hi').symm.trans hiu) ((hold hj').symm.trans hjv) he

lemma Filed.hash {r : Bool} (h : Filed s chains) (hu : s.links.unhashed id = true)
    (hrun : tcpHash fuel id s = .ok (r, s')) : ∃ chains', Filed s' chains' := by
  obtain ⟨t, s1, hget, hrest⟩ := bind_inv hrun
  obtain ⟨ht, rfl⟩ := getSk_inv hget
  split_ifs at hrest with hc hl
  · cases hrest
    exact ⟨chains, h⟩
  · obtain ⟨⟨⟩, s2, hadd, hret⟩ := bind_inv hrest
    cases hret
    have hhome : Home t (.ltable (tcpLhashfn t.sk.skSport)) := rfl
    exact ⟨_, h.addHash hu ht hhome (fun a _ _ _ hk => by cases hk) hadd⟩
  · obtain ⟨conflict, s2, hconf, hrest⟩ := bind_inv hrest
    obtain ⟨r, s3, hsearch, hret⟩ := bind_inv hconf
    obtain ⟨rfl, hr⟩ := h.search_inv hsearch
    obtain ⟨rfl, rfl⟩ := ok_inj hret
    cases hfound : r with
    | some i =>
      rw [hfound] at hrest
      obtain ⟨-, rfl⟩ := ok_inj hrest
      exact ⟨chains, h⟩
    | none =>
      rw [hfound] at hrest
      obtain ⟨⟨⟩, s2, hadd, hret⟩ := bind_inv hrest
      cases hret
      have hhome : Home t (.etable (ehash t)) := rfl
      refine ⟨_, h.addHash hu ht hhome (fun a b i u _ hi hiu he => ?_) hadd⟩
      have hb : b = ehash t := by
        obtain ⟨u', hu', hk⟩ := h.home hi
        cases Option.mem_unique hiu hu'
        exact (home_congr he (.etable b)).mp hk
      subst hb
      have hnone := List.find?_eq_none.mp (hr.symm.trans hfound) i hi
      simp [hiu, he] at hnone

lemma Filed.unhash (h : Filed s chains) (hrun : tcpUnhash id s = .ok ((), s')) : ∃ chains', Filed s' chains' := by
  obtain ⟨⟨⟩, s1, hdel, hlast⟩ := bind_inv hrun
  obtain ⟨t', s2, hget, hret⟩ := bind_inv hlast
  obtain ⟨-, rfl⟩ := getSk_inv hget
  cases hret
  rw [sockDelHash] at hdel
  split_ifs at hdel with hu
  · cases hdel
    exact ⟨chains, h⟩
  obtain ⟨k, hk⟩ : ∃ k, id ∈ chains k := by
    by_contra hno
    push Not at hno
    exact hu (h.rep.unhashed_iff.mpr hno)
  obtain ⟨⟨⟩, s3, hlink, hfree⟩ := bind_inv hdel
  cases hlink
  obtain ⟨t, s4, hread, hput⟩ := bind_inv hfree
  obtain ⟨-, rfl⟩ := getSk_inv hread
  cases hput
  have hsub : ∀ {j i}, i ∈ Function.update chains k ((chains k).erase id) j → i ∈ chains j ∧ i ≠ id := by
    intro j i hi
    by_cases hj : j = k
    · subst hj
      rw [Function.update_self, (h.rep.nodup j).mem_erase_iff] at hi
      exact ⟨hi.2, hi.1⟩
    · rw [Function.update_of_ne hj] at hi
      refine ⟨hi, ?_⟩
      rintro rfl
      exact hj (h.rep.disjoint hi hk)
  have hold : ∀ {i v}, i ≠ id → Function.update s.socks id v i = s.socks i := fun hi =>
    Function.update_of_ne hi _ _
  refine ⟨_, h.rep.del hk, fun {j i} hi => ?_, fun {a b i j u v} hi hj hiu hjv he => ?_⟩
  · obtain ⟨hi', hne⟩ := hsub hi
    obtain ⟨u, hu', hhome⟩ := h.home hi'
    exact ⟨u, (hold hne).trans hu', hhome⟩
  · obtain ⟨hi', hne⟩ := hsub hi
    obtain ⟨hj', hne'⟩ := hsub hj
    exact h.distinct hi' hj' ((hold hne).symm.trans hiu) ((hold hne').symm.trans hjv) he

def Fresh (s : Tables) (id : ℕ) : Prop := s.links.unhashed id = true

lemma Reached.filed (hr : Reached Fresh s) : ∃ chains, Filed s chains := by
  induction hr with
  | init => exact ⟨_, rep_empty, fun h => absurd h List.not_mem_nil, fun h => absurd h List.not_mem_nil⟩
  | hash _ hok hrun ih =>
    obtain ⟨chains, h⟩ := ih
    exact h.hash hok hrun
  | unhash _ hrun ih =>
    obtain ⟨chains, h⟩ := ih
    exact h.unhash hrun
  | change _ hs ih =>
    obtain ⟨chains, h⟩ := ih
    refine ⟨chains, h.socks fun i t hi ht => hs i t ?_ ht⟩
    obtain ⟨k, hk⟩ := hi
    rw [Bool.eq_false_iff]
    exact fun hu => h.rep.unhashed_iff.mp hu k hk

end Invariant

section Lookup

def InEtable (s : Tables) (id : ℕ) : Prop := ∃ a l, Chain s.links (.first (.etable a)) l ∧ id ∈ l

def InLtable (s : Tables) (id : ℕ) : Prop := ∃ a l, Chain s.links (.first (.ltable a)) l ∧ id ∈ l

def Mirrors (src dst : UInt32) (srcPort dstPort : UInt16) (t : TcpSock) : Prop :=
  ends t = (dst, src, dstPort, srcPort)

def Accepts (dst : UInt32) (dstPort : UInt16) (t : TcpSock) : Prop :=
  (t.sk.skSaddr = 0 ∨ t.sk.skSaddr = dst) ∧ t.sk.skSport = dstPort

inductive Answer (s : Tables) (src dst : UInt32) (srcPort dstPort : UInt16) : Option ℕ → Prop
  | connection {id : ℕ} {t : TcpSock} : InEtable s id → s.socks id = some t →
      Mirrors src dst srcPort dstPort t → Answer s src dst srcPort dstPort (some id)
  | listener {id : ℕ} {t : TcpSock} :
      (∀ j u, InEtable s j → s.socks j = some u → ¬Mirrors src dst srcPort dstPort u) →
      InLtable s id → s.socks id = some t → Accepts dst dstPort t → Answer s src dst srcPort dstPort (some id)
  | nobody : (∀ j u, InEtable s j → s.socks j = some u → ¬Mirrors src dst srcPort dstPort u) →
      (∀ j u, InLtable s j → s.socks j = some u → ¬Accepts dst dstPort u) →
      Answer s src dst srcPort dstPort none

lemma Filed.mem_chain_iff (h : Filed s chains) (k : Head) (id : ℕ) :
    (∃ l, Chain s.links (.first k) l ∧ id ∈ l) ↔ id ∈ chains k :=
  ⟨fun ⟨_, hc, hl⟩ => hc.unique (h.rep.chain k) ▸ hl, fun hk => ⟨_, h.rep.chain k, hk⟩⟩

lemma Filed.inEtable_iff (h : Filed s chains) (id : ℕ) : InEtable s id ↔ ∃ a, id ∈ chains (.etable a) :=
  exists_congr fun a => h.mem_chain_iff (.etable a) id

lemma Filed.inLtable_iff (h : Filed s chains) (id : ℕ) : InLtable s id ↔ ∃ a, id ∈ chains (.ltable a) :=
  exists_congr fun a => h.mem_chain_iff (.ltable a) id

lemma found_run {id : ℕ} {t : TcpSock} (ht : s.socks id = some t) : ∃ s', found (some id) s = .ok (some id, s') := by
  rw [found, getSock, bind_assoc, bind_run (getSk_run ht)]
  exact ⟨_, rfl⟩

theorem lookup_correct (hr : Reached Fresh s) :
    (∀ i j t u, InEtable s i → InEtable s j → s.socks i = some t → s.socks j = some u → ends t = ends u → i = j) ∧
      ∀ src dst srcPort dstPort, ∃ bound, ∀ fuel, bound ≤ fuel → ∃ r s',
        tcpLookupSock fuel src dst srcPort dstPort s = .ok (r, s') ∧ Answer s src dst srcPort dstPort r := by
  obtain ⟨chains, h⟩ := hr.filed
  refine ⟨fun i j t u hi hj ht hu he => ?_, fun src dst srcPort dstPort => ?_⟩
  · obtain ⟨a, ha⟩ := (h.inEtable_iff i).mp hi
    obtain ⟨b, hb⟩ := (h.inEtable_iff j).mp hj
    exact h.distinct ha hb ht hu he
  set ke := Head.etable (tcpEhashfn src dst srcPort dstPort) with hke
  set kl := Head.ltable (tcpLhashfn dstPort) with hkl
  refine ⟨(chains ke).length + (chains kl).length + 1, fun fuel hf => ?_⟩
  rw [tcpLookupSock, tcpLookupSockEstablish]
  simp only [bind_assoc]
  rw [bind_run (h.search _ ke (by omega))]
  cases hfind : (chains ke).find? fun i => (s.socks i).any fun t => t.sk.skSaddr = dst && t.sk.skDaddr = src &&
      t.sk.skSport = dstPort && t.sk.skDport = srcPort with
  | some id =>
    have hmem := List.mem_of_find?_eq_some hfind
    have hany := List.find?_some hfind
    obtain ⟨t, ht, hm⟩ := (Option.any_eq_true _ _).mp hany
    obtain ⟨s', hs'⟩ := found_run ht
    rw [bind_run hs']
    refine ⟨some id, s', rfl, .connection ((h.inEtable_iff id).mpr ⟨_, hmem⟩) ht ?_⟩
    simp only [Bool.and_eq_true, decide_eq_true_eq] at hm
    simp [Mirrors, ends, hm]
  | none =>
    have hno : ∀ j u, InEtable s j → s.socks j = some u → ¬Mirrors src dst srcPort dstPort u := by
      intro j u hj hu hm
      obtain ⟨a, ha⟩ := (h.inEtable_iff j).mp hj
      obtain ⟨u', hu', hk⟩ := h.home ha
      cases Option.mem_unique hu hu'
      simp only [Mirrors, ends, Prod.mk.injEq] at hm
      have hak : Head.etable a = ke := by
        rw [hke, ← tcpEhashfn_comm, show a = ehash u from hk, ehash]
        simp [hm]
      rw [hak] at ha
      have hnone := List.find?_eq_none.mp hfind j ha
      simp [hu, hm] at hnone
    rw [bind_run (show found none s = .ok (none, s) from rfl)]
    simp only [tcpLookupSockListen]
    rw [bind_run (h.search _ kl (by omega))]
    cases hlist : (chains kl).find? fun i => (s.socks i).any fun t =>
        (t.sk.skSaddr = 0 || t.sk.skSaddr = dst) && t.sk.skSport = dstPort with
    | some id =>
      have hmem := List.mem_of_find?_eq_some hlist
      have hany := List.find?_some hlist
      obtain ⟨t, ht, hm⟩ := (Option.any_eq_true _ _).mp hany
      obtain ⟨s', hs'⟩ := found_run ht
      refine ⟨some id, s', hs', .listener hno ((h.inLtable_iff id).mpr ⟨_, hmem⟩) ht ?_⟩
      simpa [Accepts] using hm
    | none =>
      refine ⟨none, s, rfl, .nobody hno fun j u hj hu hm => ?_⟩
      obtain ⟨a, ha⟩ := (h.inLtable_iff j).mp hj
      obtain ⟨u', hu', hk⟩ := h.home ha
      cases Option.mem_unique hu hu'
      have hak : Head.ltable a = kl := by
        rw [hkl, show a = tcpLhashfn u.sk.skSport from hk, hm.2]
      rw [hak] at ha
      have hnone := List.find?_eq_none.mp hlist j ha
      simp only [Accepts] at hm
      simp [hu, hm] at hnone

def twoSocks : Tables where
  socks id :=
    if id = 0 then some { tcpAllocSock with state := .listen, sk := { tcpAllocSock.sk with skSport := 0x5000 } }
    else if id = 1 then some { tcpAllocSock with
      state := .synRecv
      sk := { tcpAllocSock.sk with
        skSaddr := 0x0100000a, skDaddr := 0x0200000a, skSport := 0x5000, skDport := 0x0080 } }
    else none
  links := .empty

def linkedOnce : Tables := finalState (tcpHash 1 0) twoSocks

theorem lookup_correct_twoSocks : Reached Fresh (finalState (tcpHash 1 1) linkedOnce) ∧
    ∃ fuel r s', tcpLookupSock fuel 0x0200000a 0x0100000a 0x0080 0x5000 (finalState (tcpHash 1 1) linkedOnce) =
      .ok (r, s') ∧ Answer (finalState (tcpHash 1 1) linkedOnce) 0x0200000a 0x0100000a 0x0080 0x5000 r := by
  have h0 : Reached Fresh twoSocks := .init
  have h1 : Reached Fresh linkedOnce := @Reached.hash _ _ _ 1 0 true h0 rfl (run_of_outcome (by decide +kernel))
  have h2 : Reached Fresh (finalState (tcpHash 1 1) linkedOnce) :=
    @Reached.hash _ _ _ 1 1 true h1 (by decide +kernel : linkedOnce.links.unhashed 1 = true)
      (run_of_outcome (by decide +kernel))
  obtain ⟨bound, hb⟩ := (lookup_correct h2).2 0x0200000a 0x0100000a 0x0080 0x5000
  obtain ⟨r, s', hrun, ha⟩ := hb bound le_rfl
  exact ⟨h2, bound, r, s', hrun, ha⟩

def linkedTwice : Tables := finalState (tcpHash 1 0) linkedOnce

-- The second link makes the sock its own successor: a search for another port of the chain has no end.
theorem lookup_hangs_linkedTwice : Reached (fun _ _ => True) linkedTwice ∧
    ∀ fuel, tcpLookupSock fuel 0x0200000a 0x0100000a 0x0080 0x7000 linkedTwice = .error .hang := by
  have h0 : Reached (fun _ _ => True) twoSocks := .init
  have h1 : Reached (fun _ _ => True) linkedOnce :=
    @Reached.hash _ _ _ 1 0 true h0 trivial (run_of_outcome (by decide +kernel))
  refine ⟨@Reached.hash _ _ _ 1 0 true h1 trivial (run_of_outcome (by decide +kernel)), fun fuel => ?_⟩
  cases fuel with
  | zero => rfl
  | succ fuel =>
    have hempty : linkedTwice.links.slot (.first (.etable (tcpEhashfn 0x0200000a 0x0100000a 0x0080 0x7000))) =
        none := by decide +kernel
    have hfirst : linkedTwice.links.slot (.first (.ltable (tcpLhashfn 0x7000))) = some 0 := by decide +kernel
    have hnext : linkedTwice.links.slot (.next 0) = some 0 := by decide +kernel
    have htest : tests linkedTwice.socks (fun t => (t.sk.skSaddr = 0 || t.sk.skSaddr = 0x0100000a) &&
        t.sk.skSport = 0x7000) 0 = .ok false := by decide +kernel
    simp only [tcpLookupSock, tcpLookupSockEstablish, tcpLookupSockListen, bind_assoc]
    rw [bind_run (show hlistForEachSock _ _ _ linkedTwice = .ok (none, linkedTwice) by
      simp [hlistForEachSock, Hlists.search, hempty, Except.map]),
      bind_run (show found none linkedTwice = .ok (none, linkedTwice) from rfl)]
    refine bind_run_error ?_
    simp [hlistForEachSock, search_circle hfirst hnext htest, Except.map]

end Lookup

end Tapip.Tcp.Demux
