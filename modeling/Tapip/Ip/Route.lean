import Tapip.Foundation.Ranked
import Tapip.Ip.Out

/-! The routing table (ip/route.c): the first entry that matches has the longest prefix. -/

namespace Tapip.Ip.Route

open Net.ByteOrder Net.Pkb Out Foundation.Ranked

def rtAdd (rtHead : List RtEntry) (rt : RtEntry) : List RtEntry :=
  rtHead.orderedInsert (fun rt rte => rt.rtNetmask ≥ rte.rtNetmask) rt

def isEntry (ip mask : UInt32) (rt : RtEntry) : Bool := rt.rtNetmask == mask && rt.rtNet == ip

def rtDelete (rtHead : List RtEntry) (ip mask : UInt32) : List RtEntry :=
  rtHead.eraseP (isEntry ip mask)

inductive RtCall
  | add (rt : RtEntry)
  | delete (ip mask : UInt32)

def RtCall.run (rtHead : List RtEntry) : RtCall → List RtEntry
  | .add rt => rtAdd rtHead rt
  | .delete ip mask => rtDelete rtHead ip mask

def rtRun (calls : List RtCall) : List RtEntry := calls.foldl RtCall.run []

def RtCall.record (entries : List RtEntry) : RtCall → List RtEntry
  | .add rt => rt :: entries
  | .delete ip mask => entries.eraseP (isEntry ip mask)

def entries (calls : List RtCall) : List RtEntry := calls.foldl RtCall.record []

def rank (rt : RtEntry) : ℕ := rt.rtNetmask.toNat

lemma ranks_run {table newest : List RtEntry} (h : Ranks rank table newest) (call : RtCall) :
    Ranks rank (call.run table) (call.record newest) := by
  cases call with
  | add rt =>
    apply h.insert
    intro a b
    exact UInt32.le_iff_toNat_le
  | delete ip mask =>
    apply h.eraseP
    intro a b ha hb
    simp only [isEntry, Bool.and_eq_true, beq_iff_eq] at ha hb
    rw [rank, rank, ha.1, hb.1]

lemma ranks_foldl {table newest : List RtEntry} (h : Ranks rank table newest) (calls : List RtCall) :
    Ranks rank (calls.foldl RtCall.run table) (calls.foldl RtCall.record newest) := by
  induction calls generalizing table newest with
  | nil => exact h
  | cons call calls ih => exact ih (ranks_run h call)

def netmask (m : ℕ) : UInt32 := htonl (UInt32.ofNat (2 ^ 32 - 2 ^ (32 - m)))

def Contiguous (mask : UInt32) : Prop := ∃ m ≤ 32, mask = netmask m

def prefixLen (mask : UInt32) : ℕ := (List.range 32).countP mask.toNat.testBit

lemma prefixLen_netmask {m : ℕ} (hm : m ≤ 32) : prefixLen (netmask m) = m := by
  have h : ∀ m : Fin 33, prefixLen (netmask m) = m := by decide +kernel
  exact h ⟨m, by omega⟩

lemma netmask_strictMono {m n : ℕ} (hmn : m < n) (hn : n ≤ 32) : (netmask m).toNat < (netmask n).toNat := by
  have h : ∀ m n : Fin 33, m < n → (netmask m).toNat < (netmask n).toNat := by decide +kernel
  exact h ⟨m, by omega⟩ ⟨n, by omega⟩ hmn

lemma Contiguous.lt_iff {a b : UInt32} (ha : Contiguous a) (hb : Contiguous b) :
    prefixLen a < prefixLen b ↔ a.toNat < b.toNat := by
  obtain ⟨m, hm, rfl⟩ := ha
  obtain ⟨n, hn, rfl⟩ := hb
  rw [prefixLen_netmask hm, prefixLen_netmask hn]
  constructor
  · intro h
    exact netmask_strictMono h hn
  · intro h
    by_contra hle
    rcases Nat.lt_or_eq_of_le (Nat.not_lt.mp hle) with hlt | rfl
    · have := netmask_strictMono hlt hm
      omega
    · omega

def Matches (ip : UInt32) (rt : RtEntry) : Prop := rt.rtNetmask &&& ip = rt.rtNetmask &&& rt.rtNet

def RtCall.Contiguous : RtCall → Prop
  | .add rt => Route.Contiguous rt.rtNetmask
  | .delete _ mask => Route.Contiguous mask

lemma contiguous_of_mem {calls : List RtCall} (h : ∀ call ∈ calls, call.Contiguous) {rt : RtEntry}
    (hrt : rt ∈ entries calls) : Contiguous rt.rtNetmask := by
  induction calls using List.reverseRecOn with
  | nil => simp [entries] at hrt
  | append_singleton calls call ih =>
    have hold : rt ∈ entries calls → Contiguous rt.rtNetmask :=
      ih fun c hc => h c (List.mem_append_left _ hc)
    rw [entries, List.foldl_append, List.foldl_cons, List.foldl_nil] at hrt
    cases call with
    | add new =>
      rcases List.mem_cons.mp hrt with rfl | hrt
      · exact h (.add rt) (by simp)
      · exact hold hrt
    | delete ip mask => exact hold (List.mem_of_mem_eraseP hrt)

theorem rtLookup_longest (calls : List RtCall) (h : ∀ call ∈ calls, call.Contiguous) (ip : UInt32) :
    (rtLookup (rtRun calls) ip = none ↔ ∀ rt ∈ entries calls, ¬Matches ip rt) ∧
      ∀ rt, rtLookup (rtRun calls) ip = some rt →
        ∃ newer older, entries calls = newer ++ rt :: older ∧ Matches ip rt ∧
          (∀ rt' ∈ entries calls, Matches ip rt' → prefixLen rt'.rtNetmask ≤ prefixLen rt.rtNetmask) ∧
          ∀ rt' ∈ newer, Matches ip rt' → prefixLen rt'.rtNetmask < prefixLen rt.rtNetmask := by
  have hranks : Ranks rank (rtRun calls) (entries calls) := ranks_foldl .nil calls
  constructor
  · rw [rtLookup, List.find?_eq_none]
    simp only [hranks.mem_iff, beq_iff_eq]
    exact Iff.rfl
  · intro rt hrt
    obtain ⟨newer, older, hsplit, hm, hmax, hnewer⟩ := hranks.find? hrt
    have hlt : ∀ rt' ∈ entries calls, ∀ rt'' ∈ entries calls,
        (prefixLen rt'.rtNetmask < prefixLen rt''.rtNetmask ↔ rank rt' < rank rt'') :=
      fun rt' h' rt'' h'' => (contiguous_of_mem h h').lt_iff (contiguous_of_mem h h'')
    have hmem : rt ∈ entries calls := by simp [hsplit]
    refine ⟨newer, older, hsplit, by simpa [Matches] using hm, fun rt' hrt' hm' => ?_, fun rt' hrt' hm' => ?_⟩
    · apply Nat.not_lt.mp
      rw [hlt rt hmem rt' hrt']
      exact Nat.not_lt.mpr (hmax rt' hrt' (by simpa [Matches] using hm'))
    · rw [hlt rt' (by simp [hsplit, hrt']) rt hmem]
      exact hnewer rt' hrt' (by simpa [Matches] using hm')

theorem rtLookup_longest_deleted :
    ∃ newer older, entries [.add ⟨0, netmask 0, 1, 0, 0, 0⟩, .add ⟨10, netmask 8, 2, 0, 0, 0⟩,
        .add ⟨0x10a, netmask 16, 3, 0, 0, 0⟩, .add ⟨10, netmask 8, 4, 0, 0, 0⟩,
        .delete 0x10a (netmask 16)] = newer ++ ⟨10, netmask 8, 4, 0, 0, 0⟩ :: older ∧
      ∀ rt' ∈ newer, Matches 0x0500010a rt' → prefixLen rt'.rtNetmask < 8 := by
  have h := (rtLookup_longest [.add ⟨0, netmask 0, 1, 0, 0, 0⟩, .add ⟨10, netmask 8, 2, 0, 0, 0⟩,
    .add ⟨0x10a, netmask 16, 3, 0, 0, 0⟩, .add ⟨10, netmask 8, 4, 0, 0, 0⟩,
    .delete 0x10a (netmask 16)] (by
      simp only [List.mem_cons, List.not_mem_nil, or_false, forall_eq_or_imp, forall_eq]
      exact ⟨⟨0, by omega, rfl⟩, ⟨8, by omega, rfl⟩, ⟨16, by omega, rfl⟩, ⟨8, by omega, rfl⟩,
        ⟨16, by omega, rfl⟩⟩) 0x0500010a).2 ⟨10, netmask 8, 4, 0, 0, 0⟩ (by decide +kernel)
  obtain ⟨newer, older, hsplit, -, -, hnewer⟩ := h
  exact ⟨newer, older, hsplit, hnewer⟩

end Tapip.Ip.Route
