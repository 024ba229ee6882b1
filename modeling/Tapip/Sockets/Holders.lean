import Tapip.Sockets.Inet
import Tapip.Tcp.Service

/-! Which socks the sockets hold, and what the calls that have not returned rely on. -/

namespace Tapip.Sockets.Inet

open Foundation.Tally Tcp.Connection Tcp.Links

namespace Call

def socket : Call → ℕ
  | .connect k _ | .accept k _ _ | .handOver k _ _ | .read k _ _ _ => k

def subject : Call → Option ℕ
  | .connect _ id | .accept _ _ id | .read _ id _ _ => some id
  | .handOver _ _ _ => none

def reserved : Call → Option ℕ
  | .accept _ new _ | .handOver _ new _ => some new
  | _ => none

def handed : Call → Option ℕ
  | .handOver _ _ newsk => some newsk
  | _ => none

end Call

def owned (so : Option Socket) : List ℕ := (so.bind Socket.sk).toList

def own (h : Host) : ℕ → ℤ := tally id ((List.range h.nextSocket).flatMap fun k => owned (h.sockets k))

def lent (h : Host) : ℕ → ℤ := tally id (h.calls.filterMap Call.handed)

def used (h : Host) (i : ℕ) : Prop := 1 ≤ own h i + lent h i

def dialing (h : Host) (i : ℕ) : Prop := ∃ k, .connect k i ∈ h.calls

def unowned : Socket := ⟨none, false, 1⟩

structure Books (h : Host) : Prop where
  below : ∀ k so, h.sockets k = some so → k < h.nextSocket
  count : ∀ k so, h.sockets k = some so →
    so.refcnt = (!so.dead).toNat + h.calls.countP (fun c => c.socket = k)
  calls : ∀ c ∈ h.calls, ∃ so i, h.sockets c.socket = some so ∧ so.sk = some i ∧ ∀ j ∈ c.subject, j = i
  reserved : ∀ c ∈ h.calls, ∀ new ∈ c.reserved, h.sockets new = some unowned
  distinct : (h.calls.filterMap Call.reserved).Nodup
  single : ∀ i, own h i + lent h i ≤ 1

def during (h : Host) (c : Call) : Host := { h with calls := c :: h.calls }

def made (h : Host) (i : ℕ) : Host := h.add ⟨some i, false, 1⟩

def holding (k i : ℕ) : Call := .read k i 0 0

section Counting

@[simp] lemma stack_during (h : Host) (c : Call) : (during h c).stack = h.stack := rfl

@[simp] lemma sockets_during (h : Host) (c : Call) : (during h c).sockets = h.sockets := rfl

@[simp] lemma calls_during (h : Host) (c : Call) : (during h c).calls = c :: h.calls := rfl

@[simp] lemma own_during (h : Host) (c : Call) : own (during h c) = own h := rfl

@[simp] lemma socket_holding (k i : ℕ) : (holding k i).socket = k := rfl

@[simp] lemma subject_holding (k i : ℕ) : (holding k i).subject = some i := rfl

@[simp] lemma reserved_holding (k i : ℕ) : (holding k i).reserved = none := rfl

@[simp] lemma handed_holding (k i : ℕ) : (holding k i).handed = none := rfl

variable {h : Host} {k i j : ℕ} {so : Socket} {o : Option Socket} {c : Call}

lemma own_nonneg (h : Host) (i : ℕ) : 0 ≤ own h i := tally_nonneg id _ i

lemma lent_nonneg (h : Host) (i : ℕ) : 0 ≤ lent h i := tally_nonneg id _ i

lemma own_pos (hk : h.sockets k = some so) (hlt : k < h.nextSocket) (hi : so.sk = some i) : 1 ≤ own h i := by
  refine tally_pos (List.mem_flatMap.mpr ⟨k, List.mem_range.mpr hlt, ?_⟩)
  simp [owned, hk, hi]

lemma own_update (hlt : k < h.nextSocket) : own (h.put k o) =
    own h + (tally id (owned o) - tally id (owned (h.sockets k))) :=
  tally_flatMap_range_update id owned o hlt

lemma lent_during (h : Host) (c : Call) : lent (during h c) = lent h + tally id c.handed.toList := by
  cases hc : c.handed with
  | none => simp [lent, during, hc]
  | some j =>
    simp only [lent, during, List.filterMap_cons, hc, tally_cons, Option.toList_some, tally_nil, add_zero]
    exact add_comm _ _

lemma lent_during_of_none (hc : c.handed = none) : lent (during h c) = lent h := by
  simp [lent_during, hc]

@[simp] lemma lent_holding (h : Host) (k i : ℕ) : lent (during h (holding k i)) = lent h :=
  lent_during_of_none rfl

lemma dialing_during (hc : ∀ k i, c ≠ .connect k i) : dialing (during h c) = dialing h := by
  funext j
  simp only [dialing, during, List.mem_cons, eq_iff_iff]
  refine ⟨?_, fun ⟨k, hk⟩ => ⟨k, .inr hk⟩⟩
  rintro ⟨k, rfl | hk⟩
  · exact absurd rfl (hc k j)
  · exact ⟨k, hk⟩

lemma dialing_connect (h : Host) (k i : ℕ) : dialing (during h (.connect k i)) = fun j => dialing h j ∨ j = i := by
  funext j
  simp only [dialing, during, List.mem_cons, Call.connect.injEq, eq_iff_iff]
  refine ⟨?_, ?_⟩
  · rintro ⟨k', ⟨-, rfl⟩ | hk⟩
    · exact .inr rfl
    · exact .inl ⟨k', hk⟩
  · rintro (⟨k', hk⟩ | rfl)
    · exact ⟨k', .inr hk⟩
    · exact ⟨k, .inl ⟨rfl, rfl⟩⟩

@[simp] lemma dialing_holding (h : Host) (k i : ℕ) : dialing (during h (holding k i)) = dialing h :=
  dialing_during (by simp [holding])

end Counting

namespace Books

variable {h : Host} {k i j new : ℕ} {so so' : Socket} {c c' : Call} {l : List Call}

lemma stack (hb : Books h) (s : Local) (defport : UInt16) : Books { h with stack := s, defport } :=
  ⟨hb.below, hb.count, hb.calls, hb.reserved, hb.distinct, hb.single⟩

lemma perm (hb : Books h) (hp : l.Perm h.calls) : Books { h with calls := l } where
  below := hb.below
  count k so hk := by
    rw [show ({ h with calls := l } : Host).calls = l from rfl, hp.countP_eq]
    exact hb.count k so hk
  calls c hc := hb.calls c (hp.subset hc)
  reserved c hc := hb.reserved c (hp.subset hc)
  distinct := (hp.filterMap _).nodup_iff.mpr hb.distinct
  single i := by
    have hl : lent { h with calls := l } = lent h := tally_perm id (hp.filterMap _)
    rw [hl]
    exact hb.single i

lemma wake (hb : Books h) (hc : c ∈ h.calls) : Books (during { h with calls := h.calls.erase c } c) :=
  hb.perm (List.perm_cons_erase hc).symm

section Modify

variable (hk : h.sockets k = some so) (hi : so.sk = some i) (hi' : so'.sk = some i)

include hk hi hi'

lemma own_modify (hb : Books h) : own (h.put k (some so')) = own h := by
  rw [own_update (hb.below k so hk)]
  simp [owned, hk, hi, hi']

lemma modify (hb : Books h) (hr : so'.refcnt - (!so'.dead).toNat + h.calls.countP (fun c => c.socket = k) =
      so.refcnt - (!so.dead).toNat + l.countP (fun c => c.socket = k))
    (hcount : ∀ k', k' ≠ k → l.countP (fun c => c.socket = k') = h.calls.countP (fun c => c.socket = k'))
    (hcs : ∀ c ∈ l, c ∈ h.calls ∨ c = holding k i)
    (hd : l.filterMap Call.reserved = h.calls.filterMap Call.reserved)
    (hl : lent { h with calls := l } = lent h) :
    Books { h.put k (some so') with calls := l } where
  below k' so'' hk' := by
    by_cases hkk : k' = k
    · subst hkk
      exact hb.below k' so hk
    · rw [show ({ h.put k (some so') with calls := l } : Host).sockets k' =
        h.sockets k' from Function.update_of_ne hkk _ _] at hk'
      exact hb.below k' so'' hk'
  count k' so'' hk' := by
    by_cases hkk : k' = k
    · subst hkk
      obtain rfl : so' = so'' := by simpa using hk'
      have := hb.count k' so hk
      simp only
      omega
    · simp only [Function.update_of_ne hkk] at hk'
      simp only [hcount k' hkk]
      exact hb.count k' so'' hk'
  calls c hc := by
    rcases hcs c hc with hc | rfl
    · obtain ⟨so1, i1, h1, h2, h3⟩ := hb.calls c hc
      by_cases hck : c.socket = k
      · rw [hck, hk] at h1
        cases h1
        obtain rfl : i = i1 := by simpa [hi] using h2
        exact ⟨so', i, by simp [hck], hi', h3⟩
      · exact ⟨so1, i1, by simp [hck, h1], h2, h3⟩
    · exact ⟨so', i, by simp, hi', by simp⟩
  reserved c hc new hn := by
    rcases hcs c hc with hc | rfl
    · have hnew := hb.reserved c hc new hn
      have hne : new ≠ k := by
        rintro rfl
        cases Option.mem_unique hk hnew
        simp [unowned] at hi
      simpa [hne] using hnew
    · simp at hn
  distinct := by
    simp only [hd]
    exact hb.distinct
  single j := by
    have ho := hb.own_modify hk hi hi'
    have hs := hb.single j
    rw [show own { h.put k (some so') with calls := l } = _ from ho,
      show lent { h.put k (some so') with calls := l } = _ from hl]
    exact hs

lemma enter (hb : Books h) (hr : so'.refcnt - (!so'.dead).toNat = so.refcnt - (!so.dead).toNat + 1) :
    Books (during (h.put k (some so')) (holding k i)) := by
  refine hb.modify hk hi hi' ?_ ?_ ?_ rfl rfl
  · rw [List.countP_cons]
    simp only [socket_holding, decide_true, if_true]
    push_cast
    omega
  · intro k' hk'
    rw [List.countP_cons]
    simp [hk'.symm]
  · intro c hc
    exact (List.mem_cons.mp hc).symm

lemma leave (hb : Books (during h (holding k i)))
    (hr : so'.refcnt - (!so'.dead).toNat + 1 = so.refcnt - (!so.dead).toNat) :
    Books (h.put k (some so')) := by
  refine modify (h := during h (holding k i)) (l := h.calls) hk hi hi' hb ?_ ?_ ?_ rfl rfl
  · rw [calls_during, List.countP_cons]
    simp only [socket_holding, decide_true, if_true]
    push_cast
    omega
  · intro k' hk'
    rw [calls_during, List.countP_cons]
    simp [hk'.symm]
  · exact fun c hc => .inl (List.mem_cons_of_mem _ hc)

end Modify

lemma trade (hb : Books (during h c)) (hs : c'.socket = c.socket)
    (hsub : ∀ so i, h.sockets c.socket = some so → so.sk = some i → ∀ j ∈ c'.subject, j = i)
    (hres : ∀ new ∈ c'.reserved, h.sockets new = some unowned ∧ new ∉ h.calls.filterMap Call.reserved)
    (hh : ∀ j ∈ c'.handed, own h j + lent h j ≤ 0) : Books (during h c') where
  below := hb.below
  count k so hk := by
    have hc := hb.count k so hk
    simp only [during, List.countP_cons, hs] at hc ⊢
    exact hc
  calls d hd := by
    rcases List.mem_cons.mp hd with rfl | hd
    · obtain ⟨so, i, h1, h2, -⟩ := hb.calls c List.mem_cons_self
      exact ⟨so, i, hs ▸ h1, h2, hsub so i h1 h2⟩
    · exact hb.calls d (List.mem_cons_of_mem _ hd)
  reserved d hd new hn := by
    rcases List.mem_cons.mp hd with rfl | hd
    · exact (hres new hn).1
    · exact hb.reserved d (List.mem_cons_of_mem _ hd) new hn
  distinct := by
    have hnd : (h.calls.filterMap Call.reserved).Nodup :=
      hb.distinct.sublist ((List.sublist_cons_self c h.calls).filterMap _)
    simp only [during]
    cases hr : c'.reserved with
    | none => rwa [List.filterMap_cons_none hr]
    | some new =>
      rw [List.filterMap_cons_some hr, List.nodup_cons]
      exact ⟨(hres new hr).2, hnd⟩
  single j := by
    have hj := hb.single j
    have hn := own_nonneg h j
    rw [lent_during] at hj ⊢
    rw [own_during] at hj ⊢
    have hle : 0 ≤ tally id c.handed.toList j := tally_nonneg id _ j
    cases hc : c'.handed with
    | none =>
      simp only [Option.toList_none, tally_nil, Pi.add_apply, Pi.zero_apply] at hj ⊢
      omega
    | some i =>
      have hi := hh i hc
      simp only [Option.toList_some, tally_cons, tally_nil, add_zero, Pi.add_apply] at hj ⊢
      by_cases hji : j = i
      · subst hji
        simp only [id_eq, Pi.single_eq_same]
        omega
      · simp only [id_eq, Pi.single_eq_of_ne hji]
        omega

lemma release (hb : Books (during h c)) (hi : ∀ so, h.sockets c.socket = some so → so.sk = some i) :
    Books (during h (holding c.socket i)) := by
  refine hb.trade rfl (fun so j h1 h2 => ?_) (by simp) (by simp)
  have h3 := hi so h1
  simpa [h2, eq_comm] using h3

lemma shut (hb : Books (during h (holding k i))) (hk : h.sockets k = some so) (hi : so.sk = some i)
    (hr : so.refcnt - 1 ≤ 0) : Books (h.put k none) ∧
      own (h.put k none) = own h - Pi.single i 1 := by
  have hown : own (h.put k none) = own h - Pi.single i 1 := by
    rw [own_update (h := h) (hb.below k so hk)]
    simp [owned, hk, hi, sub_eq_add_neg]
  have hc := hb.count k so hk
  simp only [during, List.countP_cons] at hc
  have hnone : ∀ c ∈ h.calls, c.socket ≠ k := by
    have hz : h.calls.countP (fun c => c.socket = k) = 0 := by
      simp only [socket_holding, decide_true, if_true] at hc
      push_cast at hc
      omega
    simpa [List.countP_eq_zero] using hz
  refine ⟨⟨fun k' so' hk' => ?_, fun k' so' hk' => ?_, fun c hc' => ?_, fun c hc' new hn => ?_, ?_,
    fun j => ?_⟩, hown⟩
  · by_cases hkk : k' = k
    · simp [hkk] at hk'
    · exact hb.below k' so' (by simpa [hkk] using hk')
  · by_cases hkk : k' = k
    · simp [hkk] at hk'
    · have := hb.count k' so' (by simpa [hkk] using hk')
      simpa [List.countP_cons, Ne.symm hkk] using this
  · obtain ⟨so1, i1, h1, h2⟩ := hb.calls c (List.mem_cons_of_mem _ hc')
    exact ⟨so1, i1, by simpa [hnone c hc'] using h1, h2⟩
  · have hnew := hb.reserved c (List.mem_cons_of_mem _ hc') new hn
    have hne : new ≠ k := by
      rintro rfl
      cases Option.mem_unique hk hnew
      simp [unowned] at hi
    simpa [hne] using hnew
  · exact hb.distinct
  · have hj : own h j + lent h j ≤ 1 := hb.single j
    have hle : 0 ≤ (Pi.single i 1 : ℕ → ℤ) j := by
      by_cases hji : j = i <;> simp [hji]
    rw [show lent (h.put k none) = lent h from rfl, hown]
    simp only [Pi.sub_apply]
    omega

lemma alloc (hb : Books h) : Books (h.add unowned) ∧ own (h.add unowned) = own h := by
  have hfresh : ∀ k so, h.sockets k = some so → k ≠ h.nextSocket :=
    fun k so hk => (hb.below k so hk).ne
  have hown : own (h.add unowned) = own h := by
    have hrange : (List.range h.nextSocket).flatMap (fun k =>
        owned (Function.update h.sockets h.nextSocket (some unowned) k)) =
        (List.range h.nextSocket).flatMap fun k => owned (h.sockets k) := by
      apply List.flatMap_congr
      intro k hk
      rw [Function.update_of_ne (List.mem_range.mp hk).ne]
    simp only [own, List.range_succ, List.flatMap_append, hrange]
    simp [owned, unowned]
  refine ⟨⟨fun k so hk => ?_, fun k so hk => ?_, fun c hc => ?_, fun c hc new hn => ?_, hb.distinct,
    fun j => ?_⟩, hown⟩
  · by_cases hkk : k = h.nextSocket
    · simp [hkk]
    · have hk' := hb.below k so (by simpa [hkk] using hk)
      exact Nat.lt_succ_of_lt hk'
  · by_cases hkk : k = h.nextSocket
    · subst hkk
      obtain rfl : unowned = so := by simpa using hk
      have hz : h.calls.countP (fun c => c.socket = h.nextSocket) = 0 := by
        rw [List.countP_eq_zero]
        intro c hc
        obtain ⟨so, i, hso, -⟩ := hb.calls c hc
        simpa using hfresh _ so hso
      simp [unowned, hz]
    · exact hb.count k so (by simpa [hkk] using hk)
  · obtain ⟨so, i, hso, hrest⟩ := hb.calls c hc
    exact ⟨so, i, by simpa [hfresh _ so hso] using hso, hrest⟩
  · have hnew := hb.reserved c hc new hn
    simpa [hfresh _ _ hnew] using hnew
  · rw [hown]
    exact hb.single j

section Unowned

variable (hb : Books h) (hn : h.sockets new = some unowned) (hr : new ∉ h.calls.filterMap Call.reserved)

include hb hn

lemma not_called : ∀ c ∈ h.calls, c.socket ≠ new := by
  rintro c hc rfl
  obtain ⟨so, i, hso, hi, -⟩ := hb.calls c hc
  cases Option.mem_unique hn hso
  simp [unowned] at hi

include hr

lemma settle {o : Option Socket} (hj : ∀ j, j ∈ owned o → own h j + lent h j ≤ 0)
    (ho : ∀ so ∈ o, so.refcnt = (!so.dead).toNat) :
    Books (h.put new o) ∧
      own (h.put new o) = own h + tally id (owned o) := by
  have hown : own (h.put new o) = own h + tally id (owned o) := by
    rw [own_update (hb.below new unowned hn), hn]
    simp [owned, unowned]
  have hnc := hb.not_called hn
  refine ⟨⟨fun k so hk => ?_, fun k so hk => ?_, fun c hc => ?_, fun c hc new' hn' => ?_, hb.distinct,
    fun j => ?_⟩, hown⟩
  · by_cases hkk : k = new
    · exact hkk ▸ hb.below new unowned hn
    · exact hb.below k so (by simpa [hkk] using hk)
  · by_cases hkk : k = new
    · subst hkk
      have hz : h.calls.countP (fun c => c.socket = k) = 0 := by
        rw [List.countP_eq_zero]
        intro c hc
        simpa using hnc c hc
      have hso := ho so (by simpa using hk)
      simpa [hz] using hso
    · exact hb.count k so (by simpa [hkk] using hk)
  · obtain ⟨so, i, hso, hrest⟩ := hb.calls c hc
    exact ⟨so, i, by simpa [hnc c hc] using hso, hrest⟩
  · have hne : new' ≠ new := by
      rintro rfl
      exact hr (List.mem_filterMap.mpr ⟨c, hc, hn'⟩)
    simpa [hne] using hb.reserved c hc new' hn'
  · have hs := hb.single j
    rw [hown, show lent (h.put new o) = lent h from rfl]
    by_cases hm : j ∈ owned o
    · have hle : tally id (owned o) j ≤ 1 := by
        cases o with
        | none => simp [owned]
        | some so =>
          cases hsk : so.sk with
          | none => simp [owned, hsk]
          | some i => by_cases hji : j = i <;> simp [owned, hsk, hji]
      have := hj j hm
      simp only [Pi.add_apply]
      omega
    · simp only [Pi.add_apply, tally_eq_zero hm]
      omega

end Unowned

lemma deliver {o : Option Socket} (hb : Books (during h c)) (hr : c.reserved = some new)
    (hk : h.sockets c.socket = some so) (hi : so.sk = some i)
    (hj : ∀ j, j ∈ owned o → own h j + lent h j ≤ 0) (ho : ∀ so ∈ o, so.refcnt = (!so.dead).toNat) :
    Books (during (h.put new o) (holding c.socket i)) ∧
      own (h.put new o) = own h + tally id (owned o) ∧
      c.socket ≠ new := by
  have hn : h.sockets new = some unowned := hb.reserved c List.mem_cons_self new hr
  have hnot : new ∉ h.calls.filterMap Call.reserved := by
    have hnd := hb.distinct
    rw [calls_during, List.filterMap_cons_some hr] at hnd
    exact (List.nodup_cons.mp hnd).1
  have hhold : Books (during h (holding c.socket i)) := hb.release fun so' h1 => by
    cases Option.mem_unique hk h1
    exact hi
  obtain ⟨hb', ho'⟩ := hhold.settle hn (by simpa using hnot) (fun j hm => by simpa using hj j hm) ho
  refine ⟨hb', ho', fun he => ?_⟩
  rw [he] at hk
  cases Option.mem_unique hk hn
  simp [unowned] at hi

lemma unreserved (hb : Books h) : h.nextSocket ∉ h.calls.filterMap Call.reserved := by
  intro hm
  obtain ⟨c, hc, hr⟩ := List.mem_filterMap.mp hm
  exact lt_irrefl _ (hb.below _ _ (hb.reserved c hc _ hr))

lemma made (hb : Books h) (hi : own h i + lent h i ≤ 0) : Books (made h i) ∧
    own (made h i) = own h + Pi.single i 1 := by
  obtain ⟨hb1, ho1⟩ := hb.alloc
  have hn : (h.add unowned).sockets h.nextSocket = some unowned := by simp
  obtain ⟨hb2, ho2⟩ := hb1.settle (o := some ⟨some i, false, 1⟩) hn hb.unreserved (by
    intro j hj
    obtain rfl : i = j := by simpa [owned, eq_comm] using hj
    rw [ho1]
    exact hi) (by simp)
  rw [ho1] at ho2
  simp only [Host.put, Function.update_idem, owned, Option.bind_some, Option.toList_some, tally_cons, id_eq, tally_nil,
    add_zero] at hb2 ho2
  exact ⟨hb2, ho2⟩

end Books

end Tapip.Sockets.Inet
