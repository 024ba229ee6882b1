import Tapip.Ip.Quote
import Tapip.Ip.Reassembly

/-! The fragment queues over runs of `ip_reass` and `ip_timer`. -/

namespace Tapip.Ip.FragTable

open Foundation.Program Foundation.Tiling Net Net.ByteOrder Net.Pkb Header Frag In
open FragQueue Reassembly Quote

variable {s s' : Stack} {r : Option Pkbuf} {before after : List Fragment}

inductive Arrives : Pkbuf → Prop
  | intro {frame p : Pkbuf} (rt : RtEntry) : frame.pkLen ≤ frame.pkData.length →
      ipCheck frame = some p → isFragment p = true → ipFragoff p &&& IP_FRAG_DF = 0 →
      Arrives (routed rt p)

lemma ipCheck_checked (h : ipCheck pkb = some p) (hl : pkb.pkLen ≤ pkb.pkData.length) : Checked p := by
  have hacc := ipCheck_accepted h hl
  obtain ⟨he, hi⟩ := header_sizes
  have hheld := hacc.held
  have hge := hacc.total_ge
  have hlen : (ipLen p).toNat = (ntohs (ipLen pkb)).toNat := by
    rw [← ipNtoh_ipLen (by omega), ipLen, ipLen, hacc.pkData]
    refine congrArg UInt16.toNat (loadShortAt_congr ?_ ?_)
    · exact List.getElem?_take_of_lt (by omega)
    · exact List.getElem?_take_of_lt (by omega)
  have hhlen : iphlen p = iphlen pkb := by
    simp only [iphlen, ipHlen, List.getD_eq_getElem?_getD]
    rw [hacc.pkData, List.getElem?_take_of_lt (by omega), ipNtoh_getElem? (by omega) (by omega)]
  simp only [ipCheck] at h
  split_ifs at h with h1 h2 h3 h4 h5 h6
  simp only [Bool.or_eq_true, decide_eq_true_eq, not_or, not_lt] at h6
  refine ⟨?_, ?_, ?_⟩
  · rw [hhlen]
    exact not_lt.mp h4
  · rw [hhlen, hlen, ← ipNtoh_ipLen (by omega)]
    exact h6.1
  · rw [hacc.pkData, List.length_take, ipNtoh_length (by omega), hlen]
    omega

lemma Arrives.checked (h : Arrives pkb) : Checked pkb := by
  obtain ⟨rt, hl, hp, _, _⟩ := h
  have hc := ipCheck_checked hp hl
  exact ⟨hc.hlen_ge, hc.hlen_le, hc.length_eq⟩

inductive Op
  | reass (pkb : Pkbuf)
  | tick
deriving DecidableEq

def Op.Arrives : Op → Prop
  | .reass pkb => FragTable.Arrives pkb
  | .tick => True

section Run

variable (netIn : NetIn)

def Op.exec : Op → Prog Stack (Option Pkbuf)
  | .reass pkb => reassemble pkb
  | .tick => do
    ipTimer netIn 1
    return none

def Step (op : Op) (l : List Fragment) (r : Option Pkbuf) (l' : List Fragment) : Prop :=
  ∃ s s' : Stack, s.fragHead = l ∧ op.exec netIn s = .ok (r, s') ∧ s'.fragHead = l'

inductive Run : List (Op × Option Pkbuf) → List Fragment → Prop
  | start : Run [] []
  | step {trace : List (Op × Option Pkbuf)} {l l' : List Fragment} {op : Op} {r : Option Pkbuf} :
      Run trace l → op.Arrives → Step netIn op l r l' → Run (trace ++ [(op, r)]) l'

end Run

section Expire

def expireOne (delta : ℤ) (frag : Fragment) : Option Fragment :=
  if fullFrag frag then some frag
  else if frag.fragTtl - delta ≤ 0 then none
  else some { frag with fragTtl := frag.fragTtl - delta }

def expire (delta : ℤ) (l : List Fragment) : List Fragment := l.filterMap (expireOne delta)

variable {netIn : NetIn} {delta : ℤ}

lemma ipTimerLoop_expire (h : ipTimerLoop netIn delta l s = .ok (l', s')) : l' = expire delta l := by
  induction l generalizing l' s s' with
  | nil =>
    cases h
    rfl
  | cons frag rest ih =>
    simp only [ipTimerLoop] at h
    rw [expire, List.filterMap_cons]
    split_ifs at h with hfull httl
    · obtain ⟨l1, s1, hrest, hret⟩ := bind_inv h
      cases hret
      simp [expireOne, hfull, ih hrest, expire]
    · simp only [expireOne, hfull, httl, if_true, if_false, Bool.false_eq_true]
      cases hp : frag.fragPkb with
      | nil => simp [hp, Tcp.fault] at h
      | cons pkb pkbs =>
        simp only [hp] at h
        obtain ⟨_, s1, -, hdel⟩ := bind_inv h
        obtain ⟨_, s2, -, hrest⟩ := bind_inv hdel
        exact ih hrest
    · obtain ⟨l1, s1, hrest, hret⟩ := bind_inv h
      cases hret
      simp [expireOne, hfull, httl, ih hrest, expire]

lemma tick_inv (h : Step netIn .tick l r l') : r = none ∧ l' = expire 1 l := by
  obtain ⟨s, s', rfl, hrun, rfl⟩ := h
  obtain ⟨_, s1, htimer, hret⟩ := bind_inv hrun
  cases hret
  refine ⟨rfl, ?_⟩
  simp only [ipTimer] at htimer
  obtain ⟨l1, s2, hloop, hset⟩ := bind_inv htimer
  cases hset
  exact ipTimerLoop_expire hloop

lemma forM_freePkb_fragHead {pkbs : List Pkbuf}
    (h : pkbs.forM Stack.freePkb s = .ok ((), s')) : s'.fragHead = s.fragHead := by
  induction pkbs generalizing s s' with
  | nil =>
    cases h
    rfl
  | cons pkb pkbs ih =>
    obtain ⟨_, s1, hfree, hrest⟩ := bind_inv h
    simp only [Stack.freePkb] at hfree
    split_ifs at hfree
    cases hfree
    rw [ih hrest]

lemma reass_inv {l l' : List Fragment} {pkb : Pkbuf} (h : Step netIn (.reass pkb) l r l') :
    ∃ addr, r = (ipReass addr pkb l).pkb ∧ l' = (ipReass addr pkb l).fragHead := by
  obtain ⟨s, s', rfl, hrun, rfl⟩ := h
  refine ⟨s.pkbs.next, ?_⟩
  simp only [Op.exec, reassemble] at hrun
  generalize ipReass s.pkbs.next pkb s.fragHead = res at hrun ⊢
  have htail : ∀ s1, (do
      (fun s => .ok ((), { s with fragHead := res.fragHead }) : Prog Stack Unit)
      res.freed.forM Stack.freePkb
      return res.pkb : Prog Stack (Option Pkbuf)) s1 = .ok (r, s') →
        r = res.pkb ∧ s'.fragHead = res.fragHead := by
    intro s1 htail
    obtain ⟨_, s2, hset, hbody⟩ := bind_inv htail
    cases hset
    obtain ⟨_, s3, hfree, hret⟩ := bind_inv hbody
    cases hret
    exact ⟨rfl, forM_freePkb_fragHead hfree⟩
  split_ifs at hrun
  · obtain ⟨_, s1, -, hbody⟩ := bind_inv hrun
    exact htail s1 hbody
  · exact htail s hrun

end Expire

variable {pkb : Pkbuf} {frag frag' : Fragment} {l : List Fragment}

section Table

def fragKey (frag : Fragment) : UInt16 × UInt16 × UInt32 × UInt32 :=
  (frag.fragId, frag.fragPro, frag.fragSrc, frag.fragDst)

lemma hasKey_iff : HasKey frag k ↔ fragKey frag = (k.1, k.2.1.toUInt16, k.2.2) := by
  simp [HasKey, fragKey, Prod.ext_iff]

lemma fragSplit_spec (h : fragSplit pkb l = (before, frag, after)) :
    HasKey frag (key pkb) ∧ (∀ f ∈ before, ¬ HasKey f (key pkb)) ∧ (l = before ++ frag :: after ∨
        (before = [] ∧ frag = newFrag pkb ∧ l = after ∧ ∀ f ∈ l, ¬ HasKey f (key pkb))) := by
  have hsplit := List.takeWhile_append_dropWhile (p := fun f => !fragMatch pkb f) (l := l)
  have hbefore : ∀ f ∈ l.takeWhile (fun f => !fragMatch pkb f), ¬ HasKey f (key pkb) := by
    intro f hf
    rw [← fragMatch_iff]
    simpa using List.mem_takeWhile_imp hf
  simp only [fragSplit] at h
  split at h
  · next hd =>
    simp only [Prod.mk.injEq] at h
    obtain ⟨rfl, rfl, rfl⟩ := h
    rw [hd, List.append_nil] at hsplit
    refine ⟨newFrag_has pkb, by simp, .inr ⟨rfl, rfl, rfl, ?_⟩⟩
    rwa [hsplit] at hbefore
  · next f rest hd =>
    simp only [Prod.mk.injEq] at h
    obtain ⟨rfl, rfl, rfl⟩ := h
    have hmatch : fragMatch pkb f = true := by
      have hne : l.dropWhile (fun f => !fragMatch pkb f) ≠ [] := by simp [hd]
      have := List.head_dropWhile_not (fun f => !fragMatch pkb f) hne
      simpa [hd] using this
    exact ⟨(fragMatch_iff pkb f).mp hmatch, hbefore, .inl (by rw [← hd, hsplit])⟩

inductive Does (addr : ℕ) (pkb : Pkbuf) (frag : Fragment) (before after : List Fragment) : Reass → Prop
  | refuse {frag' : Fragment} : insertFrag pkb frag = (false, frag') →
      Does addr pkb frag before after ⟨none, before ++ frag' :: after, [pkb]⟩
  | complete {frag' : Fragment} : insertFrag pkb frag = (true, frag') → frag'.fragComplete = true →
      Does addr pkb frag before after ⟨reassFrag addr frag', before ++ after, frag'.fragPkb⟩
  | queue {frag' : Fragment} : insertFrag pkb frag = (true, frag') → frag'.fragComplete = false →
      Does addr pkb frag before after ⟨none, before ++ frag' :: after, []⟩

lemma ipReass_does (addr : ℕ) (pkb : Pkbuf) (l : List Fragment) :
    ∃ before frag after, fragSplit pkb l = (before, frag, after) ∧
      Does addr pkb frag before after (ipReass addr pkb l) := by
  rcases hs : fragSplit pkb l with ⟨before, frag, after⟩
  refine ⟨before, frag, after, rfl, ?_⟩
  simp only [ipReass, hs]
  rcases hi : insertFrag pkb frag with ⟨b, frag'⟩
  cases b with
  | false => exact .refuse hi
  | true =>
    by_cases hc : frag'.fragComplete = true
    · simp only [hc, if_true]
      exact .complete hi hc
    · simp only [hc, if_false, Bool.false_eq_true]
      exact .queue hi (by simpa using hc)

lemma fragOut_fragTtl : (fragOut pkb frag).fragTtl = frag.fragTtl := by
  simp only [fragOut]
  split <;> rfl

lemma fragOut_fragKey : fragKey (fragOut pkb frag) = fragKey frag := by
  simp only [fragOut]
  split <;> rfl

lemma insertFrag_same (h : insertFrag pkb frag = (b, frag')) :
    frag'.fragTtl = frag.fragTtl ∧ fragKey frag' = fragKey frag := by
  cases b with
  | true =>
    obtain ⟨_, ⟨_, _, rfl⟩ | ⟨_, before, after, _, _, _, rfl⟩⟩ := insertFrag_true h
    · exact ⟨fragOut_fragTtl, fragOut_fragKey⟩
    · exact ⟨fragOut_fragTtl, fragOut_fragKey⟩
  | false =>
    rcases insertFrag_false h with rfl | ⟨_, _, _, rfl⟩
    · exact ⟨rfl, rfl⟩
    · exact ⟨rfl, rfl⟩

lemma insertFrag_newFrag (pkb : Pkbuf) : (insertFrag pkb (newFrag pkb)).1 = true := by
  simp only [insertFrag, newFrag, Bool.false_eq_true, if_false, List.reverse_nil, fragPos]
  split <;> simp

structure Kept (frag : Fragment) : Prop where
  tally : Tally frag
  nonempty : frag.fragPkb ≠ []
  incomplete : frag.fragComplete = false
  notFull : fullFrag frag = false
  ttl : 0 < frag.fragTtl

lemma Kept.refuse (h : Kept frag) (hc : Checked pkb) (hi : insertFrag pkb frag = (false, frag')) : Kept frag' := by
  have ht := h.tally.insert hc hi
  rcases insertFrag_false hi with rfl | ⟨_, _, _, rfl⟩
  · exact h
  · exact ⟨ht, h.nonempty, h.incomplete, h.notFull, h.ttl⟩

lemma kept_of_queue (ht : Tally frag) (httl : 0 < frag.fragTtl) (hc : Checked pkb)
    (hi : insertFrag pkb frag = (true, frag')) (hopen : frag'.fragComplete = false) : Kept frag' := by
  have hfull : fullFrag frag' = false := (insertFrag_complete hi).symm.trans hopen
  refine ⟨ht.insert hc hi, ?_, hopen, hfull, ?_⟩
  · intro hnil
    have := (insertFrag_perm hi).length_eq
    simp [hnil] at this
  · rw [(insertFrag_same hi).1]
    exact httl

lemma Kept.expireOne (h : Kept frag) (he : expireOne delta frag = some frag') : Kept frag' := by
  simp only [FragTable.expireOne] at he
  split_ifs at he with hfull httl
  · cases he
    exact h
  · cases he
    exact ⟨⟨h.tally.checked, h.tally.rsize, h.tally.hlen, h.tally.last, h.tally.first⟩, h.nonempty,
      h.incomplete, h.notFull, not_le.mp httl⟩

structure Table (l : List Fragment) : Prop where
  kept : ∀ frag ∈ l, Kept frag
  keys : (l.map fragKey).Nodup

lemma Table.replace (h : Table (before ++ frag :: after))
    (hk : Kept frag') (he : fragKey frag' = fragKey frag) : Table (before ++ frag' :: after) := by
  refine ⟨?_, ?_⟩
  · intro f hf
    rcases List.mem_append.mp hf with hf | hf
    · exact h.kept f (List.mem_append_left _ hf)
    rcases List.mem_cons.mp hf with rfl | hf
    · exact hk
    · exact h.kept f (by simp [hf])
  · have := h.keys
    simpa [he] using this

lemma Table.sublist (h : Table l) (hs : l'.Sublist l) : Table l' :=
  ⟨fun f hf => h.kept f (hs.mem hf), h.keys.sublist (hs.map fragKey)⟩

lemma newFrag_notMem (h : ∀ f ∈ l, ¬ HasKey f (key pkb)) (he : fragKey frag = fragKey (newFrag pkb)) :
    fragKey frag ∉ l.map fragKey := by
  intro hmem
  obtain ⟨f, hf, hfk⟩ := List.mem_map.mp hmem
  have hnew := hasKey_iff.mp (newFrag_has pkb)
  exact h f hf (hasKey_iff.mpr (by rw [hfk, he, hnew]))

lemma Table.ipReass (h : Table l) (hc : Checked pkb) (addr : ℕ) : Table (ipReass addr pkb l).fragHead := by
  obtain ⟨before, frag, after, hs, hd⟩ := ipReass_does addr pkb l
  generalize Frag.ipReass addr pkb l = res at hd ⊢
  obtain ⟨-, -, rfl | ⟨rfl, rfl, rfl, hnone⟩⟩ := fragSplit_spec hs
  · have hk : Kept frag := h.kept frag (by simp)
    cases hd with
    | refuse hi => exact h.replace (hk.refuse hc hi) (insertFrag_same hi).2
    | complete hi _ => exact h.sublist ((List.sublist_cons_self _ _).append_left _)
    | queue hi hopen =>
      exact h.replace (kept_of_queue hk.tally hk.ttl hc hi hopen) (insertFrag_same hi).2
  · cases hd with
    | refuse hi => simpa [hi] using insertFrag_newFrag pkb
    | complete hi _ => exact h
    | queue hi hopen =>
      have hk := kept_of_queue (newFrag_tally pkb) (by decide : (0 : ℤ) < FRAG_TIME) hc hi hopen
      refine ⟨?_, ?_⟩
      · intro f hf
        rcases List.mem_cons.mp hf with rfl | hf
        · exact hk
        · exact h.kept f hf
      · exact List.nodup_cons.mpr ⟨newFrag_notMem hnone (insertFrag_same hi).2, h.keys⟩

lemma expireOne_fragKey (h : expireOne delta frag = some frag') : fragKey frag' = fragKey frag := by
  simp only [expireOne] at h
  split_ifs at h
  · rw [← Option.some.inj h]
  · rw [← Option.some.inj h]
    rfl

lemma expire_keys (delta : ℤ) (l : List Fragment) : ((expire delta l).map fragKey).Sublist (l.map fragKey) := by
  induction l with
  | nil => exact List.Sublist.slnil
  | cons f l ih =>
    rw [expire, List.filterMap_cons]
    cases he : expireOne delta f with
    | none => exact ih.cons _
    | some f' =>
      simp only [List.map_cons, expireOne_fragKey he]
      exact ih.cons_cons _

lemma Table.expire (h : Table l) (delta : ℤ) : Table (expire delta l) := by
  refine ⟨?_, h.keys.sublist (expire_keys delta l)⟩
  intro f hf
  obtain ⟨f0, hf0, he⟩ := List.mem_filterMap.mp hf
  exact (h.kept f0 hf0).expireOne he

lemma table_nil : Table [] := ⟨by simp, by simp⟩

variable {netIn : NetIn}

lemma Table.step {op : Op} {l' : List Fragment} (h : Table l)
    (hs : Step netIn op l r l') (ha : op.Arrives) : Table l' := by
  cases op with
  | reass pkb =>
    obtain ⟨addr, -, rfl⟩ := reass_inv hs
    exact h.ipReass ha.checked addr
  | tick =>
    obtain ⟨-, rfl⟩ := tick_inv hs
    exact h.expire 1

lemma Run.table (h : Run netIn trace l) : Table l := by
  induction h with
  | start => exact table_nil
  | step _ ha hs ih => exact ih.step hs ha

end Table

section Age

variable (netIn : NetIn)

def Queued (k : Key) (l : List Fragment) : Prop := ∃ frag ∈ l, HasKey frag k

inductive Lives (k : Key) : ℕ → List Fragment → Prop
  | born {trace : List (Op × Option Pkbuf)} {l l' : List Fragment} {pkb : Pkbuf} {r : Option Pkbuf} :
      Run netIn trace l → ¬ Queued k l → Arrives pkb → Step netIn (.reass pkb) l r l' → Queued k l' →
      Lives k 0 l'
  | reass {n : ℕ} {l l' : List Fragment} {pkb : Pkbuf} {r : Option Pkbuf} :
      Lives k n l → Arrives pkb → Step netIn (.reass pkb) l r l' → Queued k l' → Lives k n l'
  | tick {n : ℕ} {l l' : List Fragment} {r : Option Pkbuf} :
      Lives k n l → Step netIn .tick l r l' → Queued k l' → Lives k (n + 1) l'

variable {netIn} {l' : List Fragment} {k : Key} {n : ℕ}

lemma ipReass_mem (h : frag ∈ (ipReass addr pkb l).fragHead) :
    ∃ f, (f ∈ l ∨ f = newFrag pkb ∧ ¬ Queued (key pkb) l) ∧ frag.fragTtl = f.fragTtl ∧
      fragKey frag = fragKey f := by
  obtain ⟨before, f, after, hs, hd⟩ := ipReass_does addr pkb l
  obtain ⟨-, -, hl⟩ := fragSplit_spec hs
  have hfrom : f ∈ l ∨ f = newFrag pkb ∧ ¬ Queued (key pkb) l := by
    rcases hl with rfl | ⟨-, rfl, -, hnone⟩
    · exact .inl (by simp)
    · exact .inr ⟨rfl, fun ⟨g, hg, hk⟩ => hnone g hg hk⟩
  have hrest : ∀ g ∈ before ++ after, g ∈ l := by
    intro g hg
    rcases hl with rfl | ⟨rfl, -, rfl, -⟩
    · rcases List.mem_append.mp hg with hg | hg
      · exact List.mem_append_left _ hg
      · exact List.mem_append_right _ (List.mem_cons_of_mem _ hg)
    · exact hg
  have hput : ∀ {b : Bool} {f' : Fragment}, insertFrag pkb f = (b, f') → frag ∈ before ++ f' :: after →
      ∃ f, (f ∈ l ∨ f = newFrag pkb ∧ ¬ Queued (key pkb) l) ∧ frag.fragTtl = f.fragTtl ∧
        fragKey frag = fragKey f := by
    intro b f' hi hmem
    rcases List.mem_append.mp hmem with hmem | hmem
    · exact ⟨frag, .inl (hrest frag (List.mem_append_left _ hmem)), rfl, rfl⟩
    rcases List.mem_cons.mp hmem with rfl | hmem
    · exact ⟨f, hfrom, insertFrag_same hi⟩
    · exact ⟨frag, .inl (hrest frag (List.mem_append_right _ hmem)), rfl, rfl⟩
  generalize ipReass addr pkb l = res at h hd
  cases hd with
  | refuse hi => exact hput hi h
  | complete hi _ => exact ⟨frag, .inl (hrest frag h), rfl, rfl⟩
  | queue hi _ => exact hput hi h

lemma hasKey_congr (he : fragKey frag = fragKey f) : HasKey frag k ↔ HasKey f k := by
  rw [hasKey_iff, hasKey_iff, he]

lemma Lives.table (h : Lives netIn k n l) : Table l := by
  induction h with
  | born hrun _ ha hs _ => exact hrun.table.step hs ha
  | reass _ ha hs _ ih => exact ih.step hs ha
  | tick _ hs _ ih => exact ih.step hs trivial

lemma Lives.queued (h : Lives netIn k n l) : Queued k l := by
  cases h with
  | born _ _ _ _ hq => exact hq
  | reass _ _ _ hq => exact hq
  | tick _ _ hq => exact hq

lemma Lives.ttl (h : Lives netIn k n l) : ∀ f ∈ l, HasKey f k → f.fragTtl = FRAG_TIME - n := by
  induction h with
  | born _ hnone _ hs _ =>
    intro f hf hk
    obtain ⟨addr, -, rfl⟩ := reass_inv hs
    obtain ⟨f0, hmem | ⟨rfl, -⟩, httl, he⟩ := ipReass_mem hf
    · exact absurd ⟨f0, hmem, (hasKey_congr he).mp hk⟩ hnone
    · exact httl.trans (sub_zero _).symm
  | reass hl _ hs _ ih =>
    intro f hf hk
    obtain ⟨addr, -, rfl⟩ := reass_inv hs
    obtain ⟨f0, hmem | ⟨rfl, hnone⟩, httl, he⟩ := ipReass_mem hf
    · rw [httl, ih f0 hmem ((hasKey_congr he).mp hk)]
    · -- a queue with the key is there, so none is made
      obtain ⟨g, hg, hgk⟩ := hl.queued
      refine absurd ⟨g, hg, ?_⟩ hnone
      rw [hasKey_iff] at hk hgk
      rw [hasKey_congr (hgk.trans (hk.symm.trans he))]
      exact newFrag_has _
  | tick hl hs _ ih =>
    intro f hf hk
    obtain ⟨-, rfl⟩ := tick_inv hs
    obtain ⟨f0, hf0, he⟩ := List.mem_filterMap.mp hf
    have hold := ih f0 hf0 ((hasKey_congr (expireOne_fragKey he)).mp hk)
    simp only [expireOne, (hl.table.kept f0 hf0).notFull, Bool.false_eq_true, if_false] at he
    split_ifs at he
    rw [← Option.some.inj he]
    push_cast
    omega

lemma Lives.lt (h : Lives netIn k n l) : n < 30 := by
  obtain ⟨f, hf, hk⟩ := h.queued
  have hpos := (h.table.kept f hf).ttl
  rw [h.ttl f hf hk, FRAG_TIME] at hpos
  omega

lemma Run.lives (h : Run netIn trace l) : ∀ frag ∈ l, ∃ k n, HasKey frag k ∧ Lives netIn k n l := by
  induction h with
  | start => simp
  | @step trace l l' op r hrun ha hs ih =>
    intro frag hf
    cases op with
    | reass pkb =>
      obtain ⟨addr, -, rfl⟩ := reass_inv hs
      obtain ⟨f0, hmem | ⟨rfl, hnone⟩, -, he⟩ := ipReass_mem hf
      · obtain ⟨k, n, hk, hl⟩ := ih f0 hmem
        have hk' := (hasKey_congr he).mpr hk
        exact ⟨k, n, hk', hl.reass ha hs ⟨frag, hf, hk'⟩⟩
      · have hk' := (hasKey_congr he).mpr (newFrag_has pkb)
        exact ⟨key pkb, 0, hk', .born hrun hnone ha hs ⟨frag, hf, hk'⟩⟩
    | tick =>
      obtain ⟨-, rfl⟩ := tick_inv hs
      obtain ⟨f0, hf0, he⟩ := List.mem_filterMap.mp hf
      obtain ⟨k, n, hk, hl⟩ := ih f0 hf0
      have hk' := (hasKey_congr (expireOne_fragKey he)).mpr hk
      exact ⟨k, n + 1, hk', hl.tick hs ⟨frag, hf, hk'⟩⟩

section Examples

def idle (l : List Fragment) : Stack := { Stack.empty with pkbs := ⟨fun _ => 2, 1, 1, 0⟩, fragHead := l }

def next (op : Op) (l : List Fragment) : List Fragment := (finalState (op.exec dropAll) (idle l)).fragHead

lemma step_idle {op : Op} (h : outcome (op.exec dropAll) (idle l) = some r) : Step dropAll op l r (next op l) :=
  ⟨idle l, _, rfl, run_of_outcome h, rfl⟩

def wireFrame (id : UInt16) (words : ℕ) (fragoff : UInt16) (body : List UInt8) : Pkbuf :=
  ipSetChecksum (ipHton (setIpId (fragmentOf words fragoff body) id))

def received (id : UInt16) (words : ℕ) (fragoff : UInt16) (body : List UInt8) : Pkbuf :=
  routed ⟨0x0200000a, 0xffffffff, 0, 1, 0, 0⟩
    ((ipCheck (wireFrame id words fragoff body)).getD (allocPkb 0 0))

def arriving (id : UInt16) (words : ℕ) (fragoff : UInt16) (body : List UInt8) : Bool :=
  let frame := wireFrame id words fragoff body
  decide (frame.pkLen ≤ frame.pkData.length) &&
    (ipCheck frame).any fun p => isFragment p && ipFragoff p &&& IP_FRAG_DF == 0

lemma arrives_received {id : UInt16} {words : ℕ} {fragoff : UInt16} {body : List UInt8}
    (h : arriving id words fragoff body = true) : Arrives (received id words fragoff body) := by
  simp only [arriving, Bool.and_eq_true, decide_eq_true_eq, Option.any_eq_true, beq_iff_eq] at h
  obtain ⟨hl, p, hp, hfrag, hdf⟩ := h
  have hget : (ipCheck (wireFrame id words fragoff body)).getD (allocPkb 0 0) = p := by rw [hp]; rfl
  rw [received, hget]
  exact .intro _ hl hp hfrag hdf

def tail : Pkbuf := received 7 5 1 (List.replicate 16 1)

def other : Pkbuf := received 9 5 IP_FRAG_MF (List.replicate 8 4)

end Examples

theorem fragHead_invariant {trace : List (Op × Option Pkbuf)} (h : Run netIn trace l) :
    l.Pairwise (fun f g => fragKey f ≠ fragKey g) ∧
      (∀ frag ∈ l, frag.fragPkb ≠ [] ∧ frag.fragRsize = total plen frag.fragPkb ∧
        fullFrag frag = false ∧ ∃ k n, HasKey frag k ∧ Lives netIn k n l) ∧
      ∀ k n, Lives netIn k n l → n < 30 := by
  refine ⟨List.pairwise_map.mp h.table.keys, ?_, fun k n hl => hl.lt⟩
  intro frag hf
  have hk := h.table.kept frag hf
  exact ⟨hk.nonempty, hk.tally.rsize, hk.notFull, h.lives frag hf⟩

lemma run_tail : Run dropAll [(.reass tail, none)] (next (.reass tail) []) :=
  Run.start.step (arrives_received (by decide +kernel)) (step_idle (by decide +kernel))

def twoQueues : List Fragment := next (.reass other) (next .tick (next (.reass tail) []))

theorem fragHead_invariant_two : twoQueues.map Fragment.fragTtl = [30, 29] ∧
    twoQueues.Pairwise (fun f g => fragKey f ≠ fragKey g) ∧
    ∀ frag ∈ twoQueues, frag.fragRsize = total plen frag.fragPkb ∧
      ∃ k n, HasKey frag k ∧ Lives dropAll k n twoQueues ∧ n < 30 := by
  have htick : Run dropAll [(.reass tail, none), (.tick, none)] _ :=
    run_tail.step trivial (step_idle (by decide +kernel))
  have hrun : Run dropAll [(.reass tail, none), (.tick, none), (.reass other, none)] twoQueues :=
    htick.step (arrives_received (by decide +kernel)) (step_idle (by decide +kernel))
  obtain ⟨hkeys, hkept, hage⟩ := fragHead_invariant hrun
  refine ⟨by decide +kernel, hkeys, fun frag hf => ?_⟩
  obtain ⟨-, hsize, -, k, n, hk, hl⟩ := hkept frag hf
  exact ⟨hsize, k, n, hk, hl, hage k n hl⟩

end Age

section Refused

variable {netIn : NetIn}

lemma fragPkb_of_hlen (h : Tally frag) (hh : frag.fragHlen = 0) (hq : q ∈ frag.fragPkb) : frag.fragPkb = [q] := by
  have hmf : ∀ p ∈ frag.fragPkb, ipMF p = false := by
    intro p hp
    by_contra hm
    have hlen := h.hlen p hp (by simpa using hm)
    have hge := (h.checked p hp).hlen_ge
    rw [hlen, hh] at hge
    exact absurd hge (by decide)
  have hall : lasts frag.fragPkb = frag.fragPkb := List.filter_eq_self.mpr (by simpa using hmf)
  rcases h.last with ⟨_, hnil⟩ | ⟨_, p, hp, _⟩
  · rw [hall] at hnil
    simp [hnil] at hq
  · rw [hall] at hp
    rw [hp] at hq ⊢
    rw [List.mem_singleton.mp hq]

theorem refused_unchanged_iff {trace : List (Op × Option Pkbuf)} {l : List Fragment}
    (h : Run netIn trace l) (hf : frag ∈ l) (ha : Arrives pkb)
    (hi : insertFrag pkb frag = (false, frag')) :
    frag' = frag ↔ ¬ (ipMF pkb = true ∧ frag.fragHlen = 0 ∧ ∃ q ∈ frag.fragPkb, ipoff q < ipoff pkb) := by
  have hk := h.table.kept frag hf
  have hge : 20 ≤ iphlen pkb := ha.checked.hlen_ge
  constructor
  · rintro rfl ⟨hm, hh, q, hq, hlt⟩
    have hone := fragPkb_of_hlen hk.tally hh hq
    have hpos : fragPos (ipoff pkb) frag'.fragPkb.reverse [] = some ([q], []) := by
      simp [hone, fragPos, hlt, hlt.ne']
    simp only [insertFrag, hk.incomplete, hm, hpos, hh] at hi
    simp only [Bool.false_eq_true, if_false, Bool.not_true, bne_self_eq_false, Bool.false_and] at hi
    split_ifs at hi
    · have hset := congrArg Fragment.fragHlen (Prod.mk.inj hi).2
      simp only [hh] at hset
      omega
    · simp at hi
  · intro hno
    rcases insertFrag_false hi with rfl | ⟨hm, hh | hh, hq, rfl⟩
    · rfl
    · exact absurd ⟨hm, hh, hq⟩ hno
    · rw [← hh]

def tailQueue : Fragment := (insertFrag tail (newFrag tail)).2

lemma tailQueue_mem : tailQueue ∈ next (.reass tail) [] := by decide +kernel

theorem refused_unchanged_second : insertFrag tail tailQueue = (false, tailQueue) := by
  have hi : insertFrag tail tailQueue = (false, (insertFrag tail tailQueue).2) := by decide +kernel
  rw [hi, (refused_unchanged_iff run_tail tailQueue_mem (arrives_received (by decide +kernel)) hi).mpr
    (by decide +kernel)]

def overlapping : Pkbuf := received 7 6 (IP_FRAG_MF ||| 2) (List.replicate 8 2)

/-- The refused fragment sets the header length, and the start of the datagram is refused after it. -/
theorem refused_sets_hlen : ∃ trace l frag frag' pkb head, Run dropAll trace l ∧ frag ∈ l ∧
    Arrives pkb ∧ insertFrag pkb frag = (false, frag') ∧ frag' ≠ frag ∧
    Arrives head ∧ (insertFrag head frag).1 = true ∧ (insertFrag head frag').1 = false :=
  ⟨_, _, tailQueue, (insertFrag overlapping tailQueue).2, overlapping,
    received 7 5 IP_FRAG_MF (List.replicate 8 3), run_tail, tailQueue_mem,
    arrives_received (by decide +kernel), by decide +kernel, by decide +kernel,
    arrives_received (by decide +kernel), by decide +kernel, by decide +kernel⟩

end Refused

end Tapip.Ip.FragTable
