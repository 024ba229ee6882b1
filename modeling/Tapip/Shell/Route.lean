import Tapip.Ip.Route

/-! The targets of `route add` (shell/net_command.c): `parse_ip_mask` (lib/lib.c) and the entry that
`rt_lookup` then finds. -/

namespace Tapip.Shell.Route

open Net.ByteOrder Net.Pkb Ip.Out Ip.Route

section Parse

def isspace (c : Char) : Bool := c = ' ' || ('\t' ≤ c && c ≤ '\r')

def sign : List Char → Bool × List Char
  | '-' :: text => (true, text)
  | '+' :: text => (false, text)
  | text => (false, text)

def ULONG_MAX : ℕ := 2 ^ 64 - 1

/-- A `%u`, which reads as `strtoul` does: blanks, a sign and digits, and `ULONG_MAX` for a number above it. -/
def scanU (text : List Char) : Option (UInt32 × List Char) :=
  let (negative, text) := sign (text.dropWhile isspace)
  let digits := text.takeWhile Char.isDigit
  let n := digits.foldl (fun n c => 10 * n + (c.toNat - '0'.toNat)) 0
  if digits = [] then none
  else some (.ofInt (if n > ULONG_MAX then ULONG_MAX else if negative then -n else n), text.dropWhile Char.isDigit)

/-- The numbers that `sscanf` reads where the format has `%u` before, between and behind the separators. -/
def sscanf : List Char → List Char → List UInt32
  | [], text => (scanU text).toList.map Prod.fst
  | sep :: seps, text =>
    match scanU text with
    | none => []
    | some (n, rest) => n :: if rest.head? = some sep then sscanf seps rest.tail else []

def address (a b c d : UInt32) : UInt32 := a ||| b <<< 8 ||| c <<< 16 ||| d <<< 24

def str2ip (text : List Char) : Option UInt32 :=
  match sscanf ['.', '.', '.'] text with
  | [a, b, c, d] => if a > 255 ∨ b > 255 ∨ c > 255 ∨ d > 255 then none else some (address a b c d)
  | _ => none

-- `none` is a shift by the width of an `int` or more.
def shiftOne (count : UInt32) : Option UInt32 := if count < 32 then some (1 <<< count) else none

-- The inner option is the value -1. The arithmetic of `int` wraps round.
def parseIpMask (text : List Char) : Option (Option (UInt32 × UInt32)) :=
  match sscanf ['.', '.', '.', '/'] text with
  | [a, b, c, d, m] =>
    if a > 255 ∨ b > 255 ∨ c > 255 ∨ d > 255 ∨ m > 32 then some none
    else (shiftOne (32 - m)).map fun bit => some (address a b c d, htonl (~~~(bit - 1)))
  | _ => some none

def RT_NONE : UInt32 := 0

/-- `junk` is what stands in the local variables; the results of the two parsers are not looked at. -/
def routeAdd (junk : UInt32 × UInt32 × UInt32) (rtHead : List RtEntry) (target gateway : List Char) :
    Option (List RtEntry) := do
  let (ip, mask) := (← parseIpMask target).getD (junk.1, junk.2.1)
  let gw := (str2ip gateway).getD junk.2.2
  match rtLookup rtHead gw with
  | none => some rtHead
  | some e => some (rtAdd rtHead ⟨ip, mask, gw, RT_NONE, 10, e.rtDev⟩)

end Parse

section Bits

variable {m : ℕ} {mask x y : UInt32}

def netBit (x : UInt32) (i : ℕ) : Bool := x.toNat.testBit (8 * (i / 8) + (7 - i % 8))

def Masks (m : ℕ) (mask : UInt32) : Prop := ∀ i < 32, netBit mask i = decide (i < m)

lemma masks_htonl (hm : m ≤ 32) (hpos : 1 ≤ m) : Masks m (htonl (~~~((1 : UInt32) <<< (32 - UInt32.ofNat m) - 1))) := by
  have h : ∀ m : Fin 33, 1 ≤ m.val → ∀ i : Fin 32,
      netBit (htonl (~~~((1 : UInt32) <<< (32 - UInt32.ofNat m) - 1))) i = decide (i.val < m) := by
    decide +kernel
  intro i hi
  exact h ⟨m, by omega⟩ hpos ⟨i, hi⟩

lemma eq_iff_netBit : x = y ↔ ∀ i < 32, netBit x i = netBit y i := by
  refine ⟨fun h _ _ => by rw [h], fun h => ?_⟩
  apply UInt32.toNat_inj.mp
  apply Nat.eq_of_testBit_eq
  intro j
  rcases Nat.lt_or_ge j 32 with hj | hj
  · have hbit := h (8 * (j / 8) + (7 - j % 8)) (by omega)
    have hback : 8 * ((8 * (j / 8) + (7 - j % 8)) / 8) + (7 - (8 * (j / 8) + (7 - j % 8)) % 8) = j := by omega
    simpa only [netBit, hback] using hbit
  · have hlt : ∀ z : UInt32, z.toNat < 2 ^ j := fun z =>
      z.toNat_lt.trans_le (Nat.pow_le_pow_right (by decide) hj)
    rw [Nat.testBit_lt_two_pow (hlt x), Nat.testBit_lt_two_pow (hlt y)]

lemma Masks.and_eq_iff (h : Masks m mask) (hm : m ≤ 32) :
    mask &&& x = mask &&& y ↔ ∀ i < m, netBit x i = netBit y i := by
  have hand : ∀ z i, i < 32 → netBit (mask &&& z) i = (decide (i < m) && netBit z i) := by
    intro z i hi
    rw [← h i hi, netBit, UInt32.toNat_and, Nat.testBit_and]
    rfl
  rw [eq_iff_netBit]
  constructor
  · intro heq i hi
    have := heq i (by omega)
    rwa [hand x i (by omega), hand y i (by omega), decide_eq_true hi, Bool.true_and, Bool.true_and] at this
  · intro heq i hi
    rw [hand x i hi, hand y i hi]
    by_cases him : i < m
    · rw [heq i him]
    · simp [him]

def octetBit (octets : List UInt32) (i : ℕ) : Bool := (octets.getD (i / 8) 0).toNat.testBit (7 - i % 8)

lemma netBit_address {a b c d : UInt32} (ha : a ≤ 255) (hb : b ≤ 255) (hc : c ≤ 255) {i : ℕ} (hi : i < 32) :
    netBit (address a b c d) i = octetBit [a, b, c, d] i := by
  have hz : ∀ {n : UInt32}, n ≤ 255 → ∀ {j}, 8 ≤ j → n.toNat.testBit j = false := by
    intro n hn j hj
    apply Nat.testBit_lt_two_pow
    have := UInt32.le_iff_toNat_le.mp hn
    calc n.toNat < 2 ^ 8 := Nat.lt_succ_of_le this
      _ ≤ 2 ^ j := Nat.pow_le_pow_right (by decide) hj
  have hk : i / 8 = 0 ∨ i / 8 = 1 ∨ i / 8 = 2 ∨ i / 8 = 3 := by omega
  have hj : 7 - i % 8 < 8 := by omega
  have hshift : ∀ (n : UInt32) (k p : ℕ), (n.toNat <<< k % 4294967296).testBit p =
      (decide (p < 32) && (decide (k ≤ p) && n.toNat.testBit (p - k))) := by
    intro n k p
    rw [show 4294967296 = 2 ^ 32 from rfl, Nat.testBit_mod_two_pow, Nat.testBit_shiftLeft]
  rw [netBit, octetBit, address]
  generalize 7 - i % 8 = j at hj
  rcases hk with h | h | h | h <;>
    simp (disch := omega) [h, hshift, hz ha, hz hb, hz hc] <;>
    grind

end Bits

def Means (target : List Char) (octets : List UInt32) (m : ℕ) : Prop :=
  ∃ ip mask, parseIpMask target = some (some (ip, mask)) ∧ Masks m mask ∧
    ∀ junk rtHead gateway e, rtLookup rtHead ((str2ip gateway).getD junk.2.2) = some e →
      ∃ front back rt, rtHead = front ++ back ∧ routeAdd junk rtHead target gateway = some (front ++ rt :: back) ∧
        ∀ x, rtLookup (front ++ rt :: back) x =
          (rtLookup front x).or (if ∀ i < m, netBit x i = octetBit octets i then some rt else rtLookup back x)

section Accepted

variable {a b c d m : UInt32} {target : List Char}

lemma parseIpMask_eq (hread : sscanf ['.', '.', '.', '/'] target = [a, b, c, d, m]) (ha : a ≤ 255) (hb : b ≤ 255)
    (hc : c ≤ 255) (hd : d ≤ 255) (hm : m ≤ 32) :
    parseIpMask target = (shiftOne (32 - m)).map fun bit => some (address a b c d, htonl (~~~(bit - 1))) := by
  rw [parseIpMask, hread]
  simp [UInt32.not_lt.mpr ha, UInt32.not_lt.mpr hb, UInt32.not_lt.mpr hc, UInt32.not_lt.mpr hd, UInt32.not_lt.mpr hm]

lemma rtAdd_split (rtHead : List RtEntry) (rt : RtEntry) :
    ∃ front back, rtHead = front ++ back ∧ rtAdd rtHead rt = front ++ rt :: back :=
  ⟨_, _, List.takeWhile_append_dropWhile.symm, List.orderedInsert_eq_take_drop _ _ _⟩

lemma rtLookup_insert {m : ℕ} {octets : List UInt32} (rt : RtEntry) (hm : m ≤ 32) (hmask : Masks m rt.rtNetmask)
    (hnet : ∀ i < 32, netBit rt.rtNet i = octetBit octets i) (front back : List RtEntry) (x : UInt32) :
    rtLookup (front ++ rt :: back) x =
      (rtLookup front x).or (if ∀ i < m, netBit x i = octetBit octets i then some rt else rtLookup back x) := by
  have htest : (rt.rtNetmask &&& x == rt.rtNetmask &&& rt.rtNet) =
      decide (∀ i < m, netBit x i = octetBit octets i) := by
    rw [Bool.eq_iff_iff, beq_iff_eq, hmask.and_eq_iff hm, decide_eq_true_iff]
    exact forall₂_congr fun i hi => by rw [hnet i (by omega)]
  rw [rtLookup, List.find?_append, List.find?_cons, htest]
  by_cases h : ∀ i < m, netBit x i = octetBit octets i
  · rw [decide_eq_true h, if_pos h]
    rfl
  · rw [decide_eq_false h, if_neg h]
    rfl

theorem route_target_means_iff (hread : sscanf ['.', '.', '.', '/'] target = [a, b, c, d, m])
    (ha : a ≤ 255) (hb : b ≤ 255) (hc : c ≤ 255) (hd : d ≤ 255) (hm : m ≤ 32) :
    Means target [a, b, c, d] m.toNat ↔ 1 ≤ m := by
  have hparse := parseIpMask_eq hread ha hb hc hd hm
  constructor
  · rintro ⟨ip, mask, hsome, -⟩
    by_contra hlt
    obtain rfl : m = 0 := by
      apply UInt32.toNat_inj.mp
      have := mt UInt32.le_iff_toNat_le.mpr hlt
      simp at this ⊢
      omega
    rw [hparse] at hsome
    cases hsome
  · intro hpos
    have hle : m.toNat ≤ 32 := UInt32.le_iff_toNat_le.mp hm
    have hge : 1 ≤ m.toNat := UInt32.le_iff_toNat_le.mp hpos
    have hshift : shiftOne (32 - m) = some (1 <<< (32 - m)) := by
      rw [shiftOne, if_pos]
      rw [UInt32.lt_iff_toNat_lt, UInt32.toNat_sub_of_le _ _ hm]
      simp
      omega
    rw [hshift, Option.map_some] at hparse
    have hmask := masks_htonl hle hge
    rw [UInt32.ofNat_toNat] at hmask
    refine ⟨_, _, hparse, hmask, fun junk rtHead gateway e he => ?_⟩
    let rt : RtEntry :=
      ⟨address a b c d, htonl (~~~(1 <<< (32 - m) - 1)), (str2ip gateway).getD junk.2.2, RT_NONE, 10, e.rtDev⟩
    obtain ⟨front, back, hsplit, hadd⟩ := rtAdd_split rtHead rt
    refine ⟨front, back, rt, hsplit, ?_, rtLookup_insert rt hle hmask (fun i => netBit_address ha hb hc) front back⟩
    rw [routeAdd, hparse]
    simp only [Option.bind_eq_bind, Option.bind_some, Option.getD_some, he]
    exact congrArg some hadd

end Accepted

theorem route_target_means_ten : Means "10.0.0.0/8".toList [10, 0, 0, 0] 8 :=
  (route_target_means_iff (m := 8) (by decide +kernel) (by decide) (by decide) (by decide) (by decide)
    (by decide)).mpr (by decide)

/-- The default route: 1 is shifted by 32 bits. -/
theorem route_target_default : sscanf ['.', '.', '.', '/'] "0.0.0.0/0".toList = [0, 0, 0, 0, 0] ∧
    ¬ Means "0.0.0.0/0".toList [0, 0, 0, 0] 0 := by
  refine ⟨by decide +kernel, ?_⟩
  rintro ⟨ip, mask, hsome, -⟩
  have hnone : parseIpMask "0.0.0.0/0".toList = none := by
    decide +kernel
  rw [hnone] at hsome
  cases hsome

end Tapip.Shell.Route
