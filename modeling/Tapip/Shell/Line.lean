import Mathlib.Data.Int.Notation
import Mathlib.Data.List.Basic
import Mathlib.Data.List.TakeWhile

/-! The words of a line of the shell (shell/shell.c). -/

namespace Tapip.Shell.Line

def isblank (c : UInt8) : Bool := c = 0x20 || c = 0x09

def ARGV_SZ : ℕ := 16

-- A pointer into the line is an offset; `none` is an access outside of the array.
def skipBlank : ℕ → List UInt8 → ℕ → Option (List UInt8 × ℕ)
  | 0, _, _ => none
  | fuel + 1, line, p => do
    if isblank (← (line)[p]?) then skipBlank fuel (line.set p 0) (p + 1) else some (line, p)

def skipWord : ℕ → List UInt8 → ℕ → Option ℕ
  | 0, _, _ => none
  | fuel + 1, line, p => do
    let c ← (line)[p]?
    if c ≠ 0 && !isblank c then skipWord fuel line (p + 1) else some p

def getArg (line : List UInt8) (pp : ℕ) : Option (Option ℕ × List UInt8 × ℕ) := do
  let (line, p) ← skipBlank (line.length + 1) line pp
  if (← (line)[p]?) = 0 then some (none, line, p)
  else some (some p, line, ← skipWord (line.length + 1) line p)

def parseLoop : ℕ → List ℕ → List UInt8 → ℕ → Option (List ℕ × List UInt8)
  | 0, _, _, _ => none
  | fuel + 1, argv, line, pp => do
    match ← getArg line pp with
    | (none, line, _) => some (argv, line)
    | (some p, line, pp) => if argv.length < ARGV_SZ then parseLoop fuel (argv ++ [p]) line pp else none

def parseLine (line : List UInt8) (len : ℕ) : Option (ℤ × List ℕ × List UInt8) :=
  if len = 0 then some (0, [], line)
  else (parseLoop (line.length + 1) [] line 0).map fun (argv, line) => (argv.length, argv, line)

def cstring (buf : List UInt8) (p : ℕ) : Option (List UInt8) :=
  if 0 ∈ buf.drop p then some ((buf.drop p).takeWhile (· ≠ 0)) else none

def words (line : List UInt8) : List (List UInt8) := (line.splitOnP isblank).filter (· ≠ [])

def blanked (line : List UInt8) : List UInt8 := line.map fun c => if isblank c then 0 else c

variable {bs w l front back line : List UInt8} {c : UInt8} {fuel : ℕ} {argv : List ℕ}

section Words

lemma words_blanks (bs l) (hb : ∀ c ∈ bs, isblank c = true) : words (bs ++ l) = words l := by
  induction bs with
  | nil => rfl
  | cons c bs ih =>
    have hfirst : (c :: (bs ++ l)).splitOnP isblank = [] :: (bs ++ l).splitOnP isblank :=
      @List.splitOnP_append_cons_of_forall_mem _ isblank [] nofun c (hb c (by simp)) (bs ++ l)
    rw [← ih fun d hd => hb d (by simp [hd]), words, List.cons_append, words]
    simpa using congrArg (List.filter (· ≠ [])) hfirst

lemma words_append (hw : ∀ c ∈ w, isblank c = false) (hne : w ≠ []) (hl : ∀ c ∈ l.head?, isblank c = true) :
    words (w ++ l) = w :: words l := by
  cases l with
  | nil => simp [words, List.splitOnP_eq_singleton hw, hne]
  | cons c l =>
    have hc := hl c rfl
    have hblank : words (c :: l) = words l := words_blanks [c] l (by simpa using hc)
    rw [hblank, words, List.splitOnP_append_cons_of_forall_mem hw c hc, words]
    simp [hne]

lemma exists_word (l : List UInt8) : (∀ c ∈ l, isblank c = true) ∨
    ∃ bs w post, l = bs ++ (w ++ post) ∧ (∀ c ∈ bs, isblank c = true) ∧ (∀ c ∈ w, isblank c = false) ∧ w ≠ [] ∧
      ∀ c ∈ post.head?, isblank c = true := by
  induction l with
  | nil => exact .inl nofun
  | cons c l ih =>
    cases hc : isblank c with
    | true =>
      obtain hb | ⟨bs, w, post, rfl, hb, hrest⟩ := ih
      · exact .inl (List.forall_mem_cons.mpr ⟨hc, hb⟩)
      · exact .inr ⟨c :: bs, w, post, rfl, List.forall_mem_cons.mpr ⟨hc, hb⟩, hrest⟩
    | false =>
      refine .inr ⟨[], c :: l.takeWhile (!isblank ·), l.dropWhile (!isblank ·), by simp, nofun, ?_, nofun, ?_⟩
      · refine List.forall_mem_cons.mpr ⟨hc, fun d hd => ?_⟩
        simpa using List.mem_takeWhile_imp hd
      · intro d hd
        have := List.head?_dropWhile_not (!isblank ·) l
        rw [hd] at this
        simpa using this

end Words

section Search

lemma getElem?_front : (front ++ a :: back)[front.length]? = some a := by
  simp

lemma skipBlank_eq (fuel front back) (hb : ∀ c ∈ bs, isblank c = true) (hc : isblank c = false) (hf : bs.length < fuel) :
    skipBlank fuel (front ++ (bs ++ c :: back)) front.length =
      some (front ++ (blanked bs ++ c :: back), front.length + bs.length) := by
  induction bs generalizing front fuel with
  | nil =>
    obtain ⟨fuel, rfl⟩ := Nat.exists_eq_add_one.mpr hf
    simp [skipBlank, blanked, hc]
  | cons b bs ih =>
    obtain ⟨fuel, rfl⟩ := Nat.exists_eq_add_one.mpr (Nat.zero_lt_of_lt hf)
    have hb0 := hb b (by simp)
    have := ih fuel (front ++ [0]) (fun d hd => hb d (by simp [hd])) (by simpa using hf)
    simpa [skipBlank, getElem?_front, blanked, hb0, Nat.add_comm, Nat.add_left_comm] using this

lemma skipWord_eq (fuel front back) (hw : ∀ c ∈ w, c ≠ 0 ∧ isblank c = false) (hc : c = 0 ∨ isblank c = true) (hf : w.length < fuel) :
    skipWord fuel (front ++ (w ++ c :: back)) front.length = some (front.length + w.length) := by
  induction w generalizing front fuel with
  | nil =>
    obtain ⟨fuel, rfl⟩ := Nat.exists_eq_add_one.mpr hf
    rcases hc with rfl | hc <;> simp [skipWord, *]
  | cons b w ih =>
    obtain ⟨fuel, rfl⟩ := Nat.exists_eq_add_one.mpr (Nat.zero_lt_of_lt hf)
    obtain ⟨hz, hb⟩ := hw b (by simp)
    have := ih fuel (front ++ [b]) (fun d hd => hw d (by simp [hd])) (by simpa using hf)
    simpa [skipWord, getElem?_front, hz, hb, Nat.add_comm, Nat.add_left_comm] using this

lemma length_blanked : (front ++ blanked bs).length = front.length + bs.length := by
  simp [blanked]

lemma getElem?_blanked : (front ++ (blanked bs ++ a :: back))[front.length + bs.length]? = some a := by
  rw [← length_blanked, ← List.append_assoc]
  exact getElem?_front

lemma getArg_word (front) (hb : ∀ c ∈ bs, isblank c = true) (hw : ∀ c ∈ w, c ≠ 0 ∧ isblank c = false) (hne : w ≠ [])
    (hc : c = 0 ∨ isblank c = true) :
    getArg (front ++ (bs ++ (w ++ c :: back))) front.length =
      some (some (front.length + bs.length), front ++ (blanked bs ++ (w ++ c :: back)),
        front.length + bs.length + w.length) := by
  obtain ⟨a, w', rfl⟩ := List.exists_cons_of_ne_nil hne
  obtain ⟨hz, ha⟩ := hw a (by simp)
  have hskip := skipBlank_eq ((front ++ (bs ++ a :: (w' ++ c :: back))).length + 1) front (w' ++ c :: back) hb ha
    (by simp; omega)
  have hword := skipWord_eq ((front ++ (blanked bs ++ a :: (w' ++ c :: back))).length + 1) (front ++ blanked bs)
    back hw hc (by simp; omega)
  rw [List.append_assoc, length_blanked, List.cons_append] at hword
  rw [List.cons_append, getArg, hskip]
  simp only [Option.bind_eq_bind, Option.bind_some, getElem?_blanked, hz, if_false, hword]

lemma getArg_blank (front) (hb : ∀ c ∈ bs, isblank c = true) : getArg (front ++ (bs ++ 0 :: back)) front.length =
      some (none, front ++ (blanked bs ++ 0 :: back), front.length + bs.length) := by
  rw [getArg, skipBlank_eq _ front back hb rfl (by simp; omega)]
  simp [getElem?_blanked]

end Search

lemma cstring_append (front back) (hw : ∀ c ∈ w, c ≠ 0) : cstring (front ++ (w ++ 0 :: back)) front.length = some w := by
  have hstop : (w ++ 0 :: back).takeWhile (· ≠ 0) = w := by
    rw [List.takeWhile_append_of_pos (by simpa using hw)]
    simp
  rw [cstring, List.drop_left, hstop]
  simp

section Loop

lemma blanked_append : blanked (l ++ l') = blanked l ++ blanked l' := List.map_append

lemma blanked_word (hw : ∀ c ∈ w, isblank c = false) : blanked w = w :=
  List.map_congr_left (g := id) (fun c hc => by simp [hw c hc]) |>.trans (List.map_id w)

lemma blanked_next (back) (hl : ∀ c ∈ l.head?, isblank c = true) : ∃ rest, blanked l ++ 0 :: back = 0 :: rest := by
  cases l with
  | nil => exact ⟨back, rfl⟩
  | cons c l => exact ⟨blanked l ++ 0 :: back, by simp [blanked, hl c rfl]⟩

lemma parseLoop_word (hb : ∀ c ∈ bs, isblank c = true) (hw : ∀ c ∈ w, c ≠ 0 ∧ isblank c = false) (hne : w ≠ [])
    (hpost : ∀ c ∈ post.head?, isblank c = true) :
    parseLoop (fuel + 1) argv (front ++ (bs ++ (w ++ post) ++ 0 :: back)) front.length = if argv.length < ARGV_SZ
      then parseLoop fuel (argv ++ [front.length + bs.length]) (front ++ blanked bs ++ w ++ (post ++ 0 :: back))
        (front ++ blanked bs ++ w).length
      else none := by
  obtain ⟨c, rest, hrest, hc⟩ : ∃ c rest, post ++ 0 :: back = c :: rest ∧ (c = 0 ∨ isblank c = true) := by
    cases post with
    | nil => exact ⟨0, back, rfl, .inl rfl⟩
    | cons c post => exact ⟨c, post ++ 0 :: back, rfl, .inr (hpost c rfl)⟩
  have hline : front ++ (bs ++ (w ++ post) ++ 0 :: back) = front ++ (bs ++ (w ++ c :: rest)) := by
    simp [← hrest]
  have hnext : front ++ blanked bs ++ w ++ (post ++ 0 :: back) = front ++ (blanked bs ++ (w ++ c :: rest)) := by
    simp [hrest]
  rw [hline, hnext, List.length_append, length_blanked, parseLoop, getArg_word front hb hw hne hc]
  rfl

lemma parseLoop_spec (fuel argv front line back) (hz : ∀ c ∈ line, c ≠ 0) (hf : line.length < fuel)
    (hle : argv.length ≤ ARGV_SZ) :
    (argv.length + (words line).length ≤ ARGV_SZ →
      ∃ ptrs, parseLoop fuel argv (front ++ (line ++ 0 :: back)) front.length =
          some (argv ++ ptrs, front ++ (blanked line ++ 0 :: back)) ∧
        ptrs.map (cstring (front ++ (blanked line ++ 0 :: back))) = (words line).map some) ∧
    (ARGV_SZ < argv.length + (words line).length →
      parseLoop fuel argv (front ++ (line ++ 0 :: back)) front.length = none) := by
  induction fuel generalizing argv front line with
  | zero => cases hf
  | succ fuel ih =>
    obtain hb | ⟨bs, w, post, rfl, hb, hw, hne, hpost⟩ := exists_word line
    · have hwords : words line = [] := by
        simpa [words] using words_blanks line [] hb
      rw [hwords, parseLoop, getArg_blank front hb]
      exact ⟨fun _ => ⟨[], by simp, rfl⟩, fun hlt => absurd hlt (not_lt.mpr hle)⟩
    · have hwz : ∀ c ∈ w, c ≠ 0 := fun c hc => hz c (by simp [hc])
      have hshort : post.length < fuel := by
        have := List.length_pos_iff.mpr hne
        rw [List.length_append, List.length_append] at hf
        omega
      rw [parseLoop_word hb (fun c hc => ⟨hwz c hc, hw c hc⟩) hne hpost, words_blanks bs _ hb,
        words_append hw hne hpost, List.length_cons]
      split
      · obtain ⟨hfit, hmany⟩ := ih (argv ++ [front.length + bs.length]) (front ++ blanked bs ++ w) post
          (fun c hc => hz c (by simp [hc])) hshort (by rw [List.length_append]; assumption)
        rw [List.length_append, List.length_singleton] at hfit hmany
        refine ⟨fun hle => ?_, fun hlt => hmany (by omega)⟩
        obtain ⟨ptrs, hrun, hptrs⟩ := hfit (by omega)
        obtain ⟨rest, hend⟩ := blanked_next back hpost
        have hbuf : front ++ (blanked (bs ++ (w ++ post)) ++ 0 :: back) =
            front ++ blanked bs ++ w ++ (blanked post ++ 0 :: back) := by
          simp [blanked_append, blanked_word hw]
        refine ⟨(front.length + bs.length) :: ptrs, ?_, ?_⟩
        · rw [hrun, hbuf, List.append_assoc argv]
          rfl
        · rw [hbuf, List.map_cons, List.map_cons, hptrs, hend, List.append_assoc, ← length_blanked,
            cstring_append _ _ hwz]
      · exact ⟨fun hle => by omega, fun _ => rfl⟩

end Loop

def Splits (line : List UInt8) (r : Option (ℤ × List ℕ × List UInt8)) : Prop :=
  ∃ argc argv buf, r = some (argc, argv, buf) ∧ argv.length ≤ ARGV_SZ ∧
    (ARGV_SZ < (words line).length → argc < 0) ∧
    ((words line).length ≤ ARGV_SZ → argc = argv.length ∧ argv.map (cstring buf) = (words line).map some)

theorem parseLine_splits_iff (line back : List UInt8) (hz : ∀ c ∈ line, c ≠ 0) :
    Splits line (parseLine (line ++ 0 :: back) line.length) ↔ (words line).length ≤ ARGV_SZ := by
  obtain rfl | hne := eq_or_ne line []
  · exact ⟨fun _ => Nat.zero_le _, fun _ => ⟨0, [], 0 :: back, rfl, Nat.zero_le _, nofun, fun _ => ⟨rfl, rfl⟩⟩⟩
  have hlt : line.length < (line ++ 0 :: back).length + 1 := by
    rw [List.length_append]
    omega
  have hspec := parseLoop_spec _ [] [] line back hz hlt (Nat.zero_le _)
  simp only [List.nil_append, List.length_nil, Nat.zero_add] at hspec
  obtain ⟨hfit, hmany⟩ := hspec
  rw [parseLine, if_neg (by simpa using hne)]
  constructor
  · rintro ⟨argc, argv, buf, hrun, -⟩
    by_contra hlt
    rw [hmany (not_le.mp hlt)] at hrun
    cases hrun
  · intro hle
    obtain ⟨ptrs, hrun, hptrs⟩ := hfit hle
    have hlen : ptrs.length = (words line).length := by
      simpa using congrArg List.length hptrs
    exact ⟨ptrs.length, ptrs, _, by rw [hrun]; rfl, hlen.trans_le hle, fun hlt => absurd hlt (not_lt.mpr hle),
      fun _ => ⟨rfl, hptrs⟩⟩

theorem parseLine_splits_ping : Splits [0x70, 0x69, 0x6e, 0x67, 0x09, 0x2d, 0x6e, 0x20, 0x20, 0x31]
      (parseLine ([0x70, 0x69, 0x6e, 0x67, 0x09, 0x2d, 0x6e, 0x20, 0x20, 0x31] ++ 0 :: List.replicate 245 0) 10) :=
  (parseLine_splits_iff _ _ (by decide +kernel)).mpr (by decide)

/-- Seventeen times the word `"a"`: the last pointer is stored outside of `argv`. -/
theorem parseLine_overruns : ¬ Splits (List.replicate 17 [0x61, 0x20]).flatten
      (parseLine ((List.replicate 17 [0x61, 0x20]).flatten ++ 0 :: List.replicate 221 0) 34) := by
  rintro ⟨argc, argv, buf, hrun, -⟩
  have hnone : parseLine ((List.replicate 17 [0x61, 0x20]).flatten ++ 0 :: List.replicate 221 0) 34 = none := by
    decide +kernel
  rw [hnone] at hrun
  cases hrun

end Tapip.Shell.Line
