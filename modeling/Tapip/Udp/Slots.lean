import Tapip.Udp.Ports

/-! The counters of the UDP hash slots (udp/udp_sock.c). -/

namespace Tapip.Udp.Slots

open Foundation.Buckets Foundation.Program Net.ByteOrder Udp.Ports
open Tcp (Sock)

variable {s s' : HashTable} {b : ℕ} {port : UInt16}

section Choice

def Counts (s : HashTable) : Prop := ∀ b < UDP_HASH_SIZE, s.used b = (s.head b).length

structure Shaped (s : HashTable) : Prop where
  home : ∀ {b i}, i ∈ s.head b → ∃ t, s.socks i = some t ∧ slotOf (ntohs (sportOf t)) = b
  best : s.bestSlot < UDP_HASH_SIZE

structure Least (s : HashTable) (b : ℕ) : Prop where
  lt : b < UDP_HASH_SIZE
  less : s.used b < s.used s.bestSlot
  le : ∀ i < UDP_HASH_SIZE, s.used b ≤ s.used i
  first : ∀ i < b, s.used b < s.used i

lemma Least.unique {c : ℕ} (h : Least s b) (h' : Least s c) : b = c := by
  rcases Nat.lt_trichotomy b c with hlt | heq | hlt
  · exact absurd (h.le c h'.lt) (not_le.mpr (h'.first b hlt))
  · exact heq
  · exact absurd (h'.le b h.lt) (not_le.mpr (h.first c hlt))

lemma leastUsed_cases (s : HashTable) :
    leastUsed s = s.bestSlot ∧ (∀ i < UDP_HASH_SIZE, s.used s.bestSlot ≤ s.used i) ∨ Least s (leastUsed s) := by
  have hfold : ∀ n : ℕ,
      let r := (List.range n).foldl (fun best i => if s.used i < best.2 then (i, s.used i) else best)
        (s.bestSlot, s.used s.bestSlot)
      (r = (s.bestSlot, s.used s.bestSlot) ∧ ∀ i < n, s.used s.bestSlot ≤ s.used i) ∨
        (r.1 < n ∧ r.2 = s.used r.1 ∧ s.used r.1 < s.used s.bestSlot ∧ (∀ i < n, s.used r.1 ≤ s.used i) ∧
          ∀ i < r.1, s.used r.1 < s.used i) := by
    intro n
    induction n with
    | zero => exact .inl ⟨rfl, fun i hi => absurd hi (Nat.not_lt_zero i)⟩
    | succ n ih =>
      simp only [List.range_succ, List.foldl_append, List.foldl_cons, List.foldl_nil] at ih ⊢
      generalize (List.range n).foldl (fun best i => if s.used i < best.2 then (i, s.used i) else best)
        (s.bestSlot, s.used s.bestSlot) = r at ih ⊢
      have hsucc : ∀ {P : ℕ → Prop}, (∀ i < n, P i) → P n → ∀ i < n + 1, P i := by
        intro P hP hn i hi
        rcases Nat.lt_succ_iff_lt_or_eq.mp hi with hi | rfl
        · exact hP i hi
        · exact hn
      rcases ih with ⟨rfl, hle⟩ | ⟨hlt, hval, hless, hle, hfirst⟩
      · split_ifs with hn
        · refine .inr ⟨Nat.lt_succ_self n, rfl, hn, ?_, fun i hi => lt_of_lt_of_le hn (hle i hi)⟩
          exact hsucc (fun i hi => hn.le.trans (hle i hi)) le_rfl
        · exact .inl ⟨rfl, hsucc hle (not_lt.mp hn)⟩
      · split_ifs with hn
        · rw [hval] at hn
          refine .inr ⟨Nat.lt_succ_self n, rfl, hn.trans hless, ?_, fun i hi => lt_of_lt_of_le hn (hle i hi)⟩
          exact hsucc (fun i hi => hn.le.trans (hle i hi)) le_rfl
        · rw [hval] at hn
          exact .inr ⟨Nat.lt_succ_of_lt hlt, hval, hless, hsucc hle (not_lt.mp hn), hfirst⟩
  rcases hfold UDP_HASH_SIZE with ⟨hr, hle⟩ | ⟨hlt, -, hless, hle, hfirst⟩
  · exact .inl ⟨congrArg Prod.fst hr, hle⟩
  · exact .inr ⟨hlt, hless, hle, hfirst⟩

lemma getBestPort_cases (hb : s.bestSlot < UDP_HASH_SIZE) (hc : Counts s) :
    (∃ port, udpGetBestPort s = .ok (port, takeSlot s) ∧ FirstFree s s.bestSlot port) ∨
      udpGetBestPort s = .ok (0, s) ∧ Full s s.bestSlot := by
  by_cases hused : s.used s.bestSlot = 0
  · have hnil : s.head s.bestSlot = [] := by
      have := hc _ hb
      rw [hused] at this
      exact List.length_eq_zero_iff.mp (by omega)
    have hfirst := firstPort_toNat hb
    have hslot : slotOf (firstPort s) = s.bestSlot := by
      rw [slotOf_eq, hfirst]
      simp only [UDP_HASH_SIZE] at hb ⊢
      omega
    simp only [UDP_HASH_SIZE] at hb
    refine .inl ⟨firstPort s, by simp [udpGetBestPort, hused], ⟨?_, ?_, hslot⟩, ?_, ?_⟩
    · rw [UInt16.le_iff_toNat_le, hfirst]
      exact Nat.le_add_right _ _
    · rw [UInt16.lt_iff_toNat_lt, hfirst]
      simp only [UDP_PORT_MAX, UInt16.reduceToNat]
      omega
    · simp [portUsed, hslot, hnil, portUsedOn, finds]
    · rintro q hq ⟨hmin, -, hqs⟩
      have hq' : q.toNat < 0x8000 + s.bestSlot := hfirst ▸ UInt16.lt_iff_toNat_lt.mp hq
      have hmin' : 0x8000 ≤ q.toNat := hmin
      rw [slotOf_eq, UDP_HASH_SIZE] at hqs
      omega
  · exact udpGetBestPort_spec hb hused

inductive Gives (s : HashTable) : UInt16 → HashTable → Prop
  | fast {port : UInt16} : FirstFree s s.bestSlot port →
      Gives s (htons port) (findBetter s.bestSlot (takeSlot s))
  | slow {b : ℕ} {port : UInt16} : Full s s.bestSlot → Least s b → FirstFree s b port →
      Gives s port (takeSlot { s with bestSlot := b, bestUpdate := UDP_BEST_UPDATE })
  | none {s' : HashTable} : (∀ b, Least s b → Full s b) → s'.used = s.used → s'.socks = s.socks → s'.head = s.head →
      s'.bestSlot < UDP_HASH_SIZE → Gives s 0 s'

lemma udpGetPort_gives (hb : s.bestSlot < UDP_HASH_SIZE) (hc : Counts s) :
    ∃ nport s', udpGetPort s = .ok (nport, s') ∧ Gives s nport s' := by
  rcases getBestPort_cases hb hc with ⟨port, hrun, hfirst⟩ | ⟨hrun, hfull⟩
  · refine ⟨_, _, ?_, .fast hfirst⟩
    simp only [udpGetPort, hrun, ok_bind, if_neg hfirst.ne_zero]
  · simp only [udpGetPort, hrun, ok_bind, if_true, udpGetPortSlow]
    rcases leastUsed_cases s with ⟨heq, hle⟩ | hleast
    · have hno : ∀ b, Least s b → Full s b := fun b hl => absurd hl.less (not_lt.mpr (hle b hl.lt))
      exact ⟨0, s, by rw [if_pos heq], .none hno rfl rfl rfl hb⟩
    · have hne : leastUsed s ≠ s.bestSlot := fun he => absurd (he ▸ hleast.less) (lt_irrefl _)
      rw [if_neg hne]
      generalize leastUsed s = b at hleast
      have hcases := getBestPort_cases (s := { s with bestSlot := b, bestUpdate := UDP_BEST_UPDATE }) hleast.lt hc
      rcases hcases with ⟨port, hrun', hfirst⟩ | ⟨hrun', hfull'⟩
      · exact ⟨port, _, hrun', .slow hfull hleast hfirst⟩
      · have hall : ∀ c, Least s c → Full s c := fun c hc => hc.unique hleast ▸ hfull'
        exact ⟨0, _, hrun', .none hall rfl rfl rfl hleast.lt⟩

end Choice

section Agree

variable {nport : UInt16}

def Proper (s : HashTable) (nport : UInt16) (s' : HashTable) : Prop :=
  nport = 0 ∨ ∃ port, nport = htons port ∧ UDP_PORT_MIN ≤ port ∧ port < UDP_PORT_MAX ∧
    s'.used = Function.update s.used (slotOf port) (s.used (slotOf port) + 1) ∧
    ∀ c i t, i ∈ s.head c → s.socks i = some t → sportOf t ≠ nport

lemma Shaped.not_bound (h : Shaped s) (hfree : portUsed s port = false) {c i : ℕ} {t : UdpSock}
    (hi : i ∈ s.head c) (ht : s.socks i = some t) : sportOf t ≠ htons port := by
  intro he
  obtain ⟨t', ht', hslot⟩ := h.home hi
  cases Option.mem_unique ht ht'
  rw [he, ntohs_htons] at hslot
  have hused : portUsed s port = true := by
    simp only [portUsed, portUsedOn, finds, List.any_eq_true, Option.any_eq_true, decide_eq_true_eq]
    exact ⟨i, hslot ▸ hi, t, ht, he⟩
  simp [hfree] at hused

@[simp] lemma findBetter_used (best : ℕ) (s : HashTable) : (findBetter best s).used = s.used := by
  rw [findBetter]
  split_ifs <;> rfl

@[simp] lemma findBetter_socks (best : ℕ) (s : HashTable) : (findBetter best s).socks = s.socks := by
  rw [findBetter]
  split_ifs <;> rfl

@[simp] lemma findBetter_head (best : ℕ) (s : HashTable) : (findBetter best s).head = s.head := by
  rw [findBetter]
  split_ifs <;> rfl

lemma htons_eq_self (hport : InSlot port b) (hmin : UDP_PORT_MIN ≤ htons port) (hmax : htons port < UDP_PORT_MAX)
    (hslot : slotOf (htons port) = b) : htons port = port := by
  obtain ⟨hmin0, hmax0, hslot0⟩ := hport
  have hle0 : 0x8000 ≤ port.toNat := hmin0
  have hlt0 : port.toNat < 0xf000 := hmax0
  have hle : 0x8000 ≤ (htons port).toNat := hmin
  have hlt : (htons port).toNat < 0xf000 := hmax
  have hmod : (htons port).toNat % 128 = port.toNat % 128 := by
    rw [slotOf_eq] at hslot hslot0
    exact hslot.trans hslot0.symm
  apply UInt16.toNat_inj.mp
  rw [htons_toNat] at hle hlt hmod ⊢
  simp only [Foundation.OnesComplement.swap] at hle hlt hmod ⊢
  omega

-- The slow path is not taken, finds nothing, or finds a port whose bytes are equal.
def SameBytes (s : HashTable) : Prop :=
  Full s s.bestSlot → ∀ b port, Least s b → FirstFree s b port → htons port = port

theorem ports_agree_iff (h : Shaped s) (hc : Counts s) :
    (∃ nport s', udpGetPort s = .ok (nport, s') ∧ Proper s nport s') ↔ SameBytes s := by
  obtain ⟨nport, s', hrun, hgives⟩ := udpGetPort_gives h.best hc
  have hiff : (∃ nport s', udpGetPort s = .ok (nport, s') ∧ Proper s nport s') ↔ Proper s nport s' := by
    refine ⟨?_, fun hp => ⟨nport, s', hrun, hp⟩⟩
    rintro ⟨n, s1, hrun', hp⟩
    obtain ⟨rfl, rfl⟩ := ok_inj (hrun.symm.trans hrun')
    exact hp
  rw [hiff]
  cases hgives with
  | @fast port hfirst =>
    have hslot := hfirst.1.2.2
    refine iff_of_true (.inr ⟨port, rfl, hfirst.1.1, hfirst.1.2.1, ?_, ?_⟩) ?_
    · rw [findBetter_used, hslot]
      rfl
    · exact fun c i t hi ht => h.not_bound hfirst.2.1 hi ht
    · intro hfull
      have := hfull port hfirst.1
      simp [hfirst.2.1] at this
  | @slow b _ hfull hleast hfirst =>
    have hslot := hfirst.1.2.2
    constructor
    · rintro (h0 | ⟨p, hp, hmin, hmax, hused, -⟩) - c q hleast' hfirst'
      · exact absurd h0 hfirst.ne_zero
      · cases hleast.unique hleast'
        cases hfirst.unique hfirst'
        obtain rfl : htons nport = p := by rw [hp, htons_htons]
        refine htons_eq_self hfirst.1 hmin hmax ?_
        by_contra hne
        have := congrFun hused b
        rw [Function.update_of_ne (Ne.symm hne)] at this
        simp [takeSlot] at this
    · intro hsame
      have heq := hsame hfull b nport hleast hfirst
      refine .inr ⟨nport, heq.symm, hfirst.1.1, hfirst.1.2.1, ?_, ?_⟩
      · rw [hslot]
        rfl
      · exact fun c i t hi ht => heq ▸ h.not_bound hfirst.2.1 hi ht
  | none hall _ _ _ _ =>
    refine iff_of_true (.inl rfl) fun _ b port hleast hfirst => ?_
    have := hall b hleast port hfirst.1
    simp [hfirst.2.1] at this

/-- Slot `k` has given all its ports, and the other slots below `n` their first. -/
def crowded (k n : ℕ) : HashTable where
  socks i := some { fresh with
    sk.skSport := htons (UInt16.ofNat (0x8000 + if i < 224 then k + 128 * i else i - 224)) }
  head b := if b = k then List.range 224 else if b < n then [224 + b] else []
  used b := if b = k then 224 else if b < n then 1 else 0
  bestSlot := k
  bestUpdate := UDP_BEST_UPDATE

variable {k n : ℕ}

lemma crowded_shaped (hk : k < 128) (hn : n ≤ 128) : Shaped (crowded k n) := by
  refine ⟨?_, hk⟩
  intro b i hi
  refine ⟨_, rfl, ?_⟩
  rw [sportOf, ntohs_htons, slotOf_eq, UInt16.toNat_ofNat', UDP_HASH_SIZE]
  simp only [crowded] at hi
  split_ifs at hi with hb
  · rw [List.mem_range] at hi
    rw [if_pos hi]
    omega
  · cases List.mem_singleton.mp hi
    rw [if_neg (by omega)]
    omega
  · cases hi

lemma crowded_counts : Counts (crowded k n) := by
  intro b _
  simp only [crowded]
  split_ifs <;> simp

lemma crowded_full : Full (crowded k n) k := by
  rintro port ⟨hmin, hmax, hslot⟩
  have hle : 0x8000 ≤ port.toNat := hmin
  have hlt : port.toNat < 0xf000 := hmax
  have hmod := hslot
  rw [slotOf_eq, UDP_HASH_SIZE] at hmod
  have hi : (port.toNat - 0x8000) / 128 < 224 := by omega
  simp only [portUsed, hslot, portUsedOn, finds, List.any_eq_true, Option.any_eq_true, decide_eq_true_eq]
  refine ⟨(port.toNat - 0x8000) / 128, by simpa [crowded] using hi, _, rfl, ?_⟩
  have hport : 0x8000 + (k + 128 * ((port.toNat - 0x8000) / 128)) = port.toNat := by omega
  simp only [sportOf, if_pos hi, hport, UInt16.ofNat_toNat]

lemma Gives.of_slow {port : UInt16} (h : Gives s nport s') (hfull : Full s s.bestSlot) (hl : Least s b)
    (hf : FirstFree s b port) : nport = port := by
  cases h with
  | @fast port hfirst =>
    have := hfull port hfirst.1
    simp [hfirst.2.1] at this
  | slow _ hleast hfirst => exact (hleast.unique hl ▸ hfirst).unique hf
  | none hall _ _ _ _ =>
    have := hall b hl port hf.1
    simp [hf.2.1] at this

-- The slow path finds the second port of slot 0.
theorem ports_agree_crowded : ∃ s', udpGetPort (crowded 1 128) = .ok (0x8080, s') ∧
    Proper (crowded 1 128) 0x8080 s' := by
  have hleast : Least (crowded 1 128) 0 := by
    refine ⟨by decide, by decide, fun i hi => ?_, fun i hi => absurd hi (Nat.not_lt_zero i)⟩
    have hlt : i < 128 := hi
    by_cases h1 : i = 1 <;> simp [crowded, h1, hlt]
  have hfree : FirstFree (crowded 1 128) 0 0x8080 := by
    refine ⟨⟨by decide, by decide, by decide⟩, by decide +kernel, ?_⟩
    rintro q hq ⟨hmin, -, hslot⟩
    have hle : 0x8000 ≤ q.toNat := hmin
    have hlt : q.toNat < 0x8080 := hq
    rw [slotOf_eq, UDP_HASH_SIZE] at hslot
    obtain rfl : q = 0x8000 := UInt16.toNat_inj.mp (show q.toNat = 0x8000 by omega)
    decide +kernel
  have hshaped : Shaped (crowded 1 128) := crowded_shaped (by decide) le_rfl
  obtain ⟨nport, s', hrun, hproper⟩ := (ports_agree_iff hshaped crowded_counts).mpr fun _ b port hl hf => by
    cases hl.unique hleast
    cases hf.unique hfree
    rfl
  obtain ⟨nport', s1, hrun', hgives⟩ := udpGetPort_gives hshaped.best crowded_counts
  obtain ⟨rfl, rfl⟩ := ok_inj (hrun.symm.trans hrun')
  cases hgives.of_slow crowded_full hleast hfree
  exact ⟨s', hrun, hproper⟩

lemma crowded_least : Least (crowded 0 0) 1 := by
  refine ⟨by decide, by decide, fun i _ => ?_, fun i hi => ?_⟩
  · by_cases hi : i = 0 <;> simp [crowded, hi]
  · obtain rfl : i = 0 := by omega
    decide

lemma crowded_free : FirstFree (crowded 0 0) 1 0x8001 := by
  refine ⟨⟨by decide, by decide, by decide⟩, by decide, ?_⟩
  rintro q hq ⟨hmin, -, hslot⟩
  have hle : 0x8000 ≤ q.toNat := hmin
  have hlt : q.toNat < 0x8001 := hq
  rw [slotOf_eq, UDP_HASH_SIZE] at hslot
  omega

/-- The slow path gives port 0x8001 of slot 1 in host order. -/
theorem slow_port_in_host_order : Shaped (crowded 0 0) ∧ Counts (crowded 0 0) ∧
    ∃ s', udpGetPort (crowded 0 0) = .ok (0x8001, s') ∧ ¬ Proper (crowded 0 0) 0x8001 s' := by
  have hshaped : Shaped (crowded 0 0) := crowded_shaped (by decide) (by decide)
  obtain ⟨nport, s', hrun, hgives⟩ := udpGetPort_gives hshaped.best crowded_counts
  cases hgives.of_slow crowded_full crowded_least crowded_free
  refine ⟨hshaped, crowded_counts, s', hrun, ?_⟩
  rintro (h0 | ⟨port, hp, hmin, -⟩)
  · exact absurd h0 (by decide)
  · obtain rfl : port = htons 0x8001 := by rw [hp, htons_htons]
    exact absurd hmin (by decide)

end Agree

section Runs

inductive Op
  | create (id : ℕ)
  | bind (id : ℕ) (nport : UInt16)
  | close (id : ℕ)

inductive Step (s : HashTable) : Op → HashTable → Prop
  | create {id : ℕ} : s.socks id = none → Step s (.create id) (put s id (some fresh))
  | bind {id : ℕ} {nport : UInt16} {t : UdpSock} {r : Bool} {s' : HashTable} : s.socks id = some t →
      t.sk.hashed = false → udpSetSport id nport s = .ok (r, s') → Step s (.bind id nport) s'
  | close {id : ℕ} {s' : HashTable} : inetClose id s = .ok ((), s') → Step s (.close id) s'

inductive Run (ok : HashTable → Op → Prop) : HashTable → Prop
  | init : Run ok (udpInit fun _ => none)
  | step {s s' : HashTable} {op : Op} : Run ok s → ok s op → Step s op s' → Run ok s'

def SlotReady (s : HashTable) : Prop :=
  (∃ port, InSlot port s.bestSlot ∧ portUsed s port = false) ∨
    ∀ i < UDP_HASH_SIZE, s.used s.bestSlot ≤ s.used i

/-- No explicit bind succeeds, automatic ones do not need the slow path, and what is closed was bound. -/
def Tidy (s : HashTable) : Op → Prop
  | .create _ => True
  | .bind _ nport => if nport = 0 then SlotReady s else portUsed s (ntohs nport) = true
  | .close id => ∃ t, s.socks id = some t ∧ t.sk.hashed = true

structure Kept (s : HashTable) : Prop where
  sound : Sound s
  hash : ∀ {id t}, s.socks id = some t → t.sk.hashed = true → t.hash = slotOf (ntohs (sportOf t))
  counts : Counts s

variable {id : ℕ} {t : UdpSock}

lemma kept_init : Kept (udpInit fun _ => none) where
  sound := ⟨filed_empty fun _ _ h => by simp [udpInit] at h, by decide, fun h => by simp [udpInit] at h⟩
  hash h := by simp [udpInit] at h
  counts _ _ := rfl

lemma Kept.create (h : Kept s) (hid : s.socks id = none) : Kept (put s id (some fresh)) := by
  have hoff : ∀ b, id ∉ s.head b := by
    intro b hb
    obtain ⟨o, ho, -⟩ := h.sound.filed.live hb
    simp [hid] at ho
  have hnew : ∀ u ∈ some fresh, u.sk.hashed = false ∧ u.hash < UDP_HASH_SIZE := by
    intro u hu
    cases hu
    exact ⟨rfl, by decide⟩
  refine ⟨⟨h.sound.filed.aside hoff fun u hu => (hnew u hu).1, h.sound.best,
    hash_update h.sound fun u hu => (hnew u hu).2⟩, ?_, h.counts⟩
  intro j u hu hl
  by_cases hj : j = id
  · subst hj
    rw [put_self] at hu
    simp [(hnew u hu).1] at hl
  · exact h.hash ((Function.update_of_ne hj _ _).symm.trans hu) hl

lemma portReady_of_counts (h : Kept s) (hready : SlotReady s) : PortReady s := by
  rw [PortReady]
  split_ifs with hused
  · rcases getBestPort_cases h.sound.best h.counts with ⟨port, hrun, hfirst⟩ | ⟨hrun, -⟩
    · simp only [udpGetBestPort, if_pos hused] at hrun
      obtain ⟨rfl, -⟩ := ok_inj hrun
      exact hfirst.2.1
    · simp only [udpGetBestPort, if_pos hused] at hrun
      obtain ⟨-, hs⟩ := ok_inj hrun
      have := congrArg (fun s' => HashTable.used s' s.bestSlot) hs
      simp [takeSlot] at this
  · refine hready.imp_left fun hin => ?_
    obtain ⟨port, hin, hfree⟩ := hin
    exact ⟨port, hin.1, hin.2.1, hin.2.2, hfree⟩

@[simp] lemma udpUpdateBest_used (hash : ℕ) (s : HashTable) : (udpUpdateBest hash s).used = s.used := by
  rw [udpUpdateBest]
  split_ifs <;> rfl

lemma Kept.bind {nport : UInt16} {r : Bool} (h : Kept s) (ht : s.socks id = some t) (hn : t.sk.hashed = false)
    (htidy : Tidy s (.bind id nport)) (hrun : udpSetSport id nport s = .ok (r, s')) : Kept s' := by
  simp only [Tidy] at htidy
  split_ifs at htidy with h0
  · subst h0
    obtain ⟨r', s'', hrun', hsound, -⟩ := udpSetSport_spec h.sound ht hn fun _ => portReady_of_counts h htidy
    obtain ⟨-, rfl⟩ := ok_inj (hrun.symm.trans hrun')
    obtain ⟨p, s1, hget, hgives⟩ := udpGetPort_gives h.sound.best h.counts
    simp only [udpSetSport, ht, ne_eq, not_true, false_and, if_false, hget, ok_bind] at hrun
    cases hgives with
    | @fast port hfirst =>
      have hp : htons port ≠ 0 := fun h0 => hfirst.ne_zero (by rw [← htons_htons port, h0]; rfl)
      rw [if_neg hp] at hrun
      cases hrun
      refine ⟨hsound, ?_, ?_⟩
      · intro j u hu hl
        by_cases hj : j = id
        · subst hj
          simp only [udpHash, Function.update_self] at hu
          cases hu
          rfl
        · simp only [udpHash, Function.update_of_ne hj, udpUpdateBest_socks, findBetter_socks] at hu
          exact h.hash hu hl
      · intro b hb
        have hslot := hfirst.1.2.2
        have hold := h.counts b hb
        simp only [udpHash, udpUpdateBest_used, udpUpdateBest_head, findBetter_used, findBetter_head,
          ntohs_htons, hslot, takeSlot, push]
        by_cases hbs : b = s.bestSlot
        · subst hbs
          simp [hold]
        · simp [hbs, hold]
    | slow hfull hleast hfirst =>
      rcases htidy with ⟨port, hin, hfree⟩ | hle
      · simp [hfull port hin] at hfree
      · exact absurd hleast.less (not_lt.mpr (hle _ hleast.lt))
    | none _ hused hsocks hhead hbest =>
      rw [if_pos rfl] at hrun
      cases hrun
      refine ⟨hsound, ?_, ?_⟩
      · rw [hsocks]
        exact h.hash
      · rw [Counts, hused, hhead]
        exact h.counts
  · simp only [udpSetSport, ht, ne_eq, h0, not_false_eq_true, htidy, and_self, if_true] at hrun
    cases hrun
    exact h

structure Aside (id : ℕ) (s s' : HashTable) : Prop where
  used : s'.used = s.used
  head : s'.head = s.head
  socks : ∀ j ≠ id, s'.socks j = s.socks j

lemma aside_put (v : Option UdpSock) : Aside id s (put s id v) :=
  ⟨rfl, rfl, fun _ hj => Function.update_of_ne hj _ _⟩

lemma Aside.trans {s1 : HashTable} (h : Aside id s s1) (h' : Aside id s1 s') : Aside id s s' :=
  ⟨h'.used.trans h.used, h'.head.trans h.head, fun j hj => (h'.socks j hj).trans (h.socks j hj)⟩

lemma aside_freeSock (hrun : freeSock id s = .ok ((), s')) : Aside id s s' := by
  simp only [freeSock] at hrun
  split at hrun
  · simp at hrun
  · split_ifs at hrun <;>
    · cases hrun
      exact aside_put _

lemma modifySk_inv {f : Sock → Sock} (hrun : modifySk id f s = .ok ((), s')) :
    ∃ t, s.socks id = some t ∧ s' = put s id (some { t with sk := f t.sk }) := by
  simp only [modifySk] at hrun
  split at hrun
  · simp at hrun
  · cases hrun
    exact ⟨_, ‹_›, rfl⟩

lemma inetClose_inv (ht : s.socks id = some t) (hl : t.sk.hashed = true) (hrun : inetClose id s = .ok ((), s')) :
    s'.used = Function.update s.used t.hash (s.used t.hash - 1) ∧ s'.head = remove id s.head ∧
      ∀ j ≠ id, s'.socks j = s.socks j := by
  obtain ⟨⟨⟩, s4, hclose, hfree⟩ := bind_inv hrun
  obtain ⟨⟨⟩, s1, hwait, hrest⟩ := bind_inv hclose
  obtain ⟨⟨⟩, s2, hunhash, hqueue⟩ := bind_inv hrest
  obtain ⟨t', ht', rfl⟩ := modifySk_inv hwait
  cases Option.mem_unique ht ht'
  obtain ⟨_, -, rfl⟩ := modifySk_inv hqueue
  simp only [udpUnhash, put_self, sockDelHash, udpUnsetSport, udpUpdateBest_socks] at hunhash
  rw [if_pos hl] at hunhash
  have hall := ((aside_freeSock hunhash).trans (aside_put _)).trans (aside_freeSock hfree)
  refine ⟨?_, ?_, fun j hj => ?_⟩
  · rw [hall.used]
    simp [put]
  · rw [hall.head]
    simp [put]
  · rw [hall.socks j hj]
    simp [put, hj]

lemma Kept.close (h : Kept s) (ht : s.socks id = some t) (hl : t.sk.hashed = true)
    (hrun : inetClose id s = .ok ((), s')) : Kept s' := by
  have hsound := inetClose_sound h.sound hrun
  obtain ⟨hused, hhead, hsocks⟩ := inetClose_inv ht hl hrun
  obtain ⟨b, hid⟩ := h.sound.filed.listed ht hl
  have hb : t.hash = b := (h.hash ht hl).trans (h.sound.filed.home hid ht).symm
  refine ⟨hsound, ?_, ?_⟩
  · intro j u hu hlu
    by_cases hj : j = id
    · subst hj
      obtain ⟨c, hc⟩ := hsound.filed.listed hu hlu
      rw [hhead] at hc
      exact absurd rfl (h.sound.filed.mem_remove.mp hc).1
    · exact h.hash ((hsocks j hj).symm.trans hu) hlu
  · intro c hc
    have hold := h.counts c hc
    rw [hused, hhead, hb, remove]
    by_cases hcb : c = b
    · subst hcb
      have hpos := List.length_pos_of_mem hid
      rw [Function.update_self, List.length_erase_of_mem hid, hold]
      omega
    · have hoff : id ∉ s.head c := fun hi => hcb ((h.sound.filed.home hi ht).trans (h.sound.filed.home hid ht).symm)
      rw [Function.update_of_ne hcb, List.erase_of_not_mem hoff, hold]

lemma Run.kept (h : Run Tidy s) : Kept s := by
  induction h with
  | init => exact kept_init
  | step _ htidy hstep ih =>
    cases hstep with
    | create hid => exact ih.create hid
    | bind ht hn hrun => exact ih.bind ht hn htidy hrun
    | close hrun =>
      obtain ⟨t, ht, hl⟩ := htidy
      exact ih.close ht hl hrun

theorem counts_exact (h : Run Tidy s) : ∀ b < UDP_HASH_SIZE, s.used b = (s.head b).length ∧ 0 ≤ s.used b := by
  intro b hb
  have hcount := h.kept.counts b hb
  exact ⟨hcount, by omega⟩

def created : HashTable := put (udpInit fun _ => none) 0 (some fresh)

lemma run_created {ok : HashTable → Op → Prop} (hok : ∀ s id, ok s (.create id)) : Run ok created :=
  .step .init (hok _ 0) (.create rfl)

def autoBound : HashTable := finalState (udpSetSport 0 0) created

def boundClosed : HashTable := finalState (inetClose 0) autoBound

theorem counts_exact_auto : autoBound.head 0 = [0] ∧ autoBound.used 0 = 1 ∧ boundClosed.head 0 = [] ∧
    ∀ b < UDP_HASH_SIZE, boundClosed.used b = (boundClosed.head b).length ∧ 0 ≤ boundClosed.used b := by
  have hready : Tidy created (.bind 0 0) := .inr fun _ _ => le_rfl
  have hrun : udpSetSport 0 0 created = .ok (true, autoBound) := run_of_outcome (by decide +kernel)
  have hbound : Run Tidy autoBound := (run_created fun _ _ => trivial).step hready
    (.bind (show created.socks 0 = some fresh from rfl) rfl hrun)
  have hclose : inetClose 0 autoBound = .ok ((), boundClosed) := run_of_outcome (by decide +kernel)
  have hlinked : Tidy autoBound (.close 0) := ⟨_, rfl, rfl⟩
  exact ⟨by decide +kernel, by decide +kernel, by decide +kernel, counts_exact (hbound.step hlinked (.close hclose))⟩

def explicitBound : HashTable := finalState (udpSetSport 0 0x5000) created

def closedUnbound : HashTable := finalState (inetClose 0) created

/-- An explicit bind is not counted, and the close of a sock without a port is. -/
theorem counts_drift : (Run (fun _ _ => True) explicitBound ∧ explicitBound.head 80 = [0] ∧
      explicitBound.used 80 = 0) ∧
    (Run (fun _ _ => True) closedUnbound ∧ closedUnbound.head 0 = [] ∧ closedUnbound.used 0 = -1) := by
  have hbind : udpSetSport 0 0x5000 created = .ok (true, explicitBound) := run_of_outcome (by decide +kernel)
  have hclose : inetClose 0 created = .ok ((), closedUnbound) := run_of_outcome (by decide +kernel)
  refine ⟨⟨(run_created fun _ _ => trivial).step trivial (.bind (show created.socks 0 = some fresh from rfl) rfl hbind),
    by decide +kernel, by decide +kernel⟩, (run_created fun _ _ => trivial).step trivial (.close hclose),
    by decide +kernel, by decide +kernel⟩

end Runs

end Tapip.Udp.Slots
