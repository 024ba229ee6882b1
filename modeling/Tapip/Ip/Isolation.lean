import Tapip.Ip.FragTable

/-! Fragments of one datagram do not influence how another one is put together. -/

namespace Tapip.Ip.Isolation

open Foundation.Program Net Net.Pkb Header Frag FragQueue Reassembly FragTable

def bare (pkb : Pkbuf) : Pkbuf := { allocPkb 0 0 with pkData := pkb.pkData }

def bareFrag (frag : Fragment) : Fragment := { frag with fragPkb := frag.fragPkb.map bare }

def bareOp : Op → Op
  | .reass pkb => .reass (bare pkb)
  | .tick => .tick

def unplaced (pkb : Pkbuf) : Pkbuf := { pkb with pkAddr := 0 }

def concerns (k : Key) : Op → Bool
  | .reass pkb => key pkb = k
  | .tick => true

def seen (k : Key) (trace : List (Op × Option Pkbuf)) : List Op :=
  (trace.filter fun c => concerns k c.1).map fun c => bareOp c.1

def returned (k : Key) (trace : List (Op × Option Pkbuf)) : List (Option Pkbuf) :=
  (trace.filter fun c => concerns k c.1).map fun c => c.2.map unplaced

instance (frag : Fragment) (k : Key) : Decidable (HasKey frag k) :=
  inferInstanceAs (Decidable (_ ∧ _ ∧ _ ∧ _))

def project (k : Key) (l : List Fragment) : List Fragment :=
  (l.filter fun f => decide (HasKey f k)).map bareFrag

variable {pkb : Pkbuf} {frag frag' : Fragment}

section Bare

lemma fragPos_bare (off : ℕ) (rev after : List Pkbuf) : fragPos off (rev.map bare) (after.map bare) =
      (fragPos off rev after).map (Prod.map (List.map bare) (List.map bare)) := by
  induction rev generalizing after with
  | nil => rfl
  | cons q rev ih =>
    have hoff : ipoff (bare q) = ipoff q := rfl
    simp only [List.map_cons, fragPos, hoff]
    split_ifs
    · rfl
    · simp
    · exact ih (q :: after)

@[simp] lemma ipMF_bare : ipMF (bare pkb) = ipMF pkb := rfl
@[simp] lemma ipoff_bare : ipoff (bare pkb) = ipoff pkb := rfl
@[simp] lemma iphlen_bare : iphlen (bare pkb) = iphlen pkb := rfl
@[simp] lemma ipLen_bare : ipLen (bare pkb) = ipLen pkb := rfl
@[simp] lemma key_bare : key (bare pkb) = key pkb := rfl
@[simp] lemma fragComplete_bare : (bareFrag frag).fragComplete = frag.fragComplete := rfl

lemma fragOut_bare : fragOut (bare pkb) (bareFrag frag) = bareFrag (fragOut pkb frag) := by
  simp only [fragOut]
  split_ifs with h h' h'
  · rfl
  · exact absurd h h'
  · exact absurd h' h
  · rfl

lemma placeLast_bare : placeLast (bare pkb) (bareFrag frag) = bareFrag (placeLast pkb frag) := by
  simp [placeLast, bareFrag]

lemma placeAt_bare (before after : List Pkbuf) : placeAt (bare pkb) (bareFrag frag) (before.map bare) (after.map bare) =
      bareFrag (placeAt pkb frag before after) := by
  simp [placeAt, bareFrag]

lemma insertFrag_bare : insertFrag (bare pkb) (bareFrag frag) = Prod.map id bareFrag (insertFrag pkb frag) := by
  have hpos := fragPos_bare (ipoff pkb) frag.fragPkb.reverse []
  rw [List.map_reverse, List.map_nil] at hpos
  have hpkb : (bareFrag frag).fragPkb = frag.fragPkb.map bare := rfl
  have hhlen : (bareFrag frag).fragHlen = frag.fragHlen := rfl
  have hlast : (bareFrag frag).fragLastIn = frag.fragLastIn := rfl
  have hlastOut : (true, fragOut (bare pkb) (placeLast (bare pkb) (bareFrag frag))) =
      Prod.map id bareFrag (true, fragOut pkb (placeLast pkb frag)) :=
    congrArg (Prod.mk true) ((congrArg _ placeLast_bare).trans fragOut_bare)
  simp only [insertFrag, fragComplete_bare, ipMF_bare, ipoff_bare, iphlen_bare, hhlen, hlast, hpkb, hpos]
  cases fragPos (ipoff pkb) frag.fragPkb.reverse [] with
  | none =>
    simp only [Option.map_none]
    split_ifs
    · rfl
    · rfl
    · exact hlastOut
    · rfl
  | some p =>
    obtain ⟨before, after⟩ := p
    have hany : (before.map bare).getLast?.any
          (fun q => decide ((ipoff q : ℤ) + (ipLen q).toNat - iphlen pkb > ipoff pkb)) =
        before.getLast?.any (fun q => decide ((ipoff q : ℤ) + (ipLen q).toNat - iphlen pkb > ipoff pkb)) := by
      rw [List.getLast?_map, Option.any_map]
      rfl
    simp only [Option.map_some, Prod.map_apply]
    split_ifs with _ _ _ _ h h' h'
    · rfl
    · rfl
    · exact hlastOut
    · rfl
    · rfl
    · exact absurd (hany.symm.trans h) h'
    · exact absurd (hany.trans h') h
    · exact congrArg (Prod.mk true) ((congrArg _ (placeAt_bare before after)).trans fragOut_bare)

lemma reassCopy_bare (hlen : ℕ) (pkbs : List Pkbuf) (p : ℕ) (d : List UInt8) :
    reassCopy hlen (pkbs.map bare) p d = reassCopy hlen pkbs p d := by
  induction pkbs generalizing p d with
  | nil => rfl
  | cons q pkbs ih => exact ih _ _

lemma reassFrag_bare (addr : ℕ) : reassFrag 0 (bareFrag frag) = (reassFrag addr frag).map unplaced := by
  by_cases hlen : frag.fragHlen + frag.fragSize > 65535
  · simp [reassFrag, bareFrag, hlen]
  · cases hp : frag.fragPkb with
    | nil => simp [reassFrag, bareFrag, hlen, hp]
    | cons q pkbs =>
      have hcopy := reassCopy_bare frag.fragHlen (q :: pkbs)
      simp only [List.map_cons] at hcopy
      simp only [reassFrag, bareFrag, hp, List.map_cons, if_neg hlen, hcopy]
      rfl

end Bare

variable {k : Key}

section Project

variable {l : List Fragment}

lemma HasKey.unique {j : Key} (hj : HasKey frag j) (hk : HasKey frag k) : j = k := by
  rw [hasKey_iff] at hj hk
  have he := hj.symm.trans hk
  simp only [Prod.mk.injEq, UInt8.toUInt16_inj] at he
  exact Prod.ext he.1 (Prod.ext he.2.1 he.2.2)

lemma project_append (k : Key) (l m : List Fragment) : project k (l ++ m) = project k l ++ project k m := by
  simp [project]

lemma project_cons_of_has (h : HasKey frag k) (l : List Fragment) :
    project k (frag :: l) = bareFrag frag :: project k l := by
  simp [project, h]

lemma project_cons_of_not (h : ¬ HasKey frag k) (l : List Fragment) : project k (frag :: l) = project k l := by
  simp [project, h]

lemma project_nil_of_not (h : ∀ f ∈ l, ¬ HasKey f k) : project k l = [] := by
  simpa [project] using h

def replayOne : Op → List Fragment → List Fragment × Option Pkbuf
  | .reass pkb, l => ((ipReass 0 pkb l).fragHead, (ipReass 0 pkb l).pkb)
  | .tick, l => (expire 1 l, none)

lemma fragSplit_project {before after : List Fragment} (h : fragSplit pkb l = (before, frag, after)) :
    fragSplit (bare pkb) (project (key pkb) l) = ([], bareFrag frag, project (key pkb) after) := by
  obtain ⟨hk, hbefore, rfl | ⟨rfl, rfl, rfl, hnone⟩⟩ := fragSplit_spec h
  · rw [project_append, project_nil_of_not hbefore, List.nil_append, project_cons_of_has hk]
    exact fragSplit_head hk
  · rw [project_nil_of_not hnone]
    rfl

lemma ipReass_project (addr : ℕ) (pkb : Pkbuf) (l : List Fragment) :
    replayOne (.reass (bare pkb)) (project (key pkb) l) =
      (project (key pkb) (ipReass addr pkb l).fragHead, (ipReass addr pkb l).pkb.map unplaced) := by
  obtain ⟨before, frag, after, hs, hd⟩ := ipReass_does addr pkb l
  obtain ⟨hk, hbefore, -⟩ := fragSplit_spec hs
  have hput : ∀ {b : Bool} {f' : Fragment}, insertFrag pkb frag = (b, f') →
      project (key pkb) (before ++ f' :: after) = bareFrag f' :: project (key pkb) after := by
    intro b f' hi
    rw [project_append, project_nil_of_not hbefore, List.nil_append, project_cons_of_has (insertFrag_has hi hk)]
  have hone := @insertFrag_bare pkb frag
  generalize Frag.ipReass addr pkb l = res at hd ⊢
  simp only [replayOne, ipReass, fragSplit_project hs, hone]
  cases hd with
  | refuse hi => simp [hi, hput hi]
  | complete hi hc =>
    simp [hi, hc, project_append, project_nil_of_not hbefore, reassFrag_bare addr]
  | queue hi hc => simp [hi, hc, hput hi]

lemma ipReass_project_of_ne (addr : ℕ) (l : List Fragment) (h : key pkb ≠ k) :
    project k (ipReass addr pkb l).fragHead = project k l := by
  obtain ⟨before, frag, after, hs, hd⟩ := ipReass_does addr pkb l
  obtain ⟨hk, -, hl⟩ := fragSplit_spec hs
  have hother : ∀ {f}, HasKey f (key pkb) → ¬ HasKey f k := fun hf hk => h (HasKey.unique hf hk)
  have hold : project k l = project k before ++ project k after := by
    rcases hl with rfl | ⟨rfl, -, rfl, -⟩
    · rw [project_append, project_cons_of_not (hother hk)]
    · rfl
  generalize Frag.ipReass addr pkb l = res at hd ⊢
  cases hd with
  | refuse hi => rw [hold, project_append, project_cons_of_not (hother (insertFrag_has hi hk))]
  | complete hi _ => rw [hold, project_append]
  | queue hi _ => rw [hold, project_append, project_cons_of_not (hother (insertFrag_has hi hk))]

lemma expire_project (delta : ℤ) (k : Key) (l : List Fragment) :
    project k (expire delta l) = expire delta (project k l) := by
  induction l with
  | nil => rfl
  | cons f l ih =>
    have hbare : expireOne delta (bareFrag f) = (expireOne delta f).map bareFrag := by
      have hfull : fullFrag (bareFrag f) = fullFrag f := rfl
      have httl : (bareFrag f).fragTtl = f.fragTtl := rfl
      simp only [expireOne, hfull, httl]
      split_ifs <;> rfl
    rw [expire, List.filterMap_cons]
    by_cases hk : HasKey f k
    · rw [project_cons_of_has hk, expire, List.filterMap_cons, hbare]
      cases he : expireOne delta f with
      | none => exact ih
      | some f' =>
        have hk' : HasKey f' k := (hasKey_congr (expireOne_fragKey he)).mpr hk
        exact (project_cons_of_has hk' _).trans (congrArg _ ih)
    · rw [project_cons_of_not hk]
      cases he : expireOne delta f with
      | none => exact ih
      | some f' =>
        have hk' : ¬ HasKey f' k := fun hk' => hk ((hasKey_congr (expireOne_fragKey he)).mp hk')
        exact (project_cons_of_not hk' _).trans ih

end Project

section Runs

variable {netIn : NetIn}

lemma step_project {op : Op} {l l' : List Fragment} {r : Option Pkbuf} (h : Step netIn op l r l') :
    if concerns k op then replayOne (bareOp op) (project k l) = (project k l', r.map unplaced)
    else project k l' = project k l := by
  cases op with
  | reass pkb =>
    obtain ⟨addr, rfl, rfl⟩ := reass_inv h
    by_cases hk : key pkb = k
    · subst hk
      simpa [concerns, bareOp] using ipReass_project addr pkb l
    · simpa [concerns, hk] using ipReass_project_of_ne addr l hk
  | tick =>
    obtain ⟨rfl, rfl⟩ := tick_inv h
    simp [concerns, bareOp, replayOne, expire_project]

def replay (ops : List Op) : List Fragment × List (Option Pkbuf) :=
  ops.foldl (fun acc op => ((replayOne op acc.1).1, acc.2 ++ [(replayOne op acc.1).2])) ([], [])

lemma Run.replay {trace : List (Op × Option Pkbuf)} {l : List Fragment} (h : Run netIn trace l) :
    (project k l, returned k trace) = replay (seen k trace) := by
  induction h with
  | start => rfl
  | @step trace l l' op r _ _ hs ih =>
    have hstep := step_project (k := k) hs
    by_cases hc : concerns k op = true
    · simp only [hc, if_true] at hstep
      have hseen : seen k (trace ++ [(op, r)]) = seen k trace ++ [bareOp op] := by simp [seen, hc]
      have hret : returned k (trace ++ [(op, r)]) = returned k trace ++ [r.map unplaced] := by
        simp [returned, hc]
      rw [hseen, hret, Isolation.replay, List.foldl_append]
      simp only [List.foldl_cons, List.foldl_nil]
      rw [← Isolation.replay, ← ih, hstep]
    · simp only [hc, if_false, Bool.false_eq_true] at hstep
      have hseen : seen k (trace ++ [(op, r)]) = seen k trace := by simp [seen, hc]
      have hret : returned k (trace ++ [(op, r)]) = returned k trace := by simp [returned, hc]
      rw [hseen, hret, hstep, ih]

theorem reassembly_isolated (k : Key) {trace trace' : List (Op × Option Pkbuf)} {l l' : List Fragment}
    (h : Run netIn trace l) (h' : Run netIn trace' l') (hseen : seen k trace = seen k trace') :
    returned k trace = returned k trace' := by
  have hr := congrArg Prod.snd (Run.replay (k := k) h)
  have hr' := congrArg Prod.snd (Run.replay (k := k) h')
  simp only at hr hr'
  rw [hr, hr', hseen]

section Examples

def head : Pkbuf := received 7 5 IP_FRAG_MF (List.replicate 8 3)

def joined (l : List Fragment) : Option Pkbuf := (outcome ((Op.reass head).exec dropAll) (idle l)).getD none

def alone : List (Op × Option Pkbuf) :=
  [(.reass tail, none), (.reass head, joined (next (.reass tail) []))]

def mixed : List (Op × Option Pkbuf) :=
  [(.reass tail, none), (.reass other, none), (.reass head, joined (next (.reass other) (next (.reass tail) [])))]

theorem reassembly_isolated_other : returned (key tail) alone = returned (key tail) mixed ∧
    (joined (next (.reass tail) [])).isSome = true := by
  have halone : Run dropAll alone _ :=
    run_tail.step (arrives_received (by decide +kernel)) (step_idle (by decide +kernel))
  have hother : Run dropAll [(.reass tail, none), (.reass other, none)] _ :=
    run_tail.step (arrives_received (by decide +kernel)) (step_idle (by decide +kernel))
  have hmixed : Run dropAll mixed _ :=
    hother.step (arrives_received (by decide +kernel)) (step_idle (by decide +kernel))
  exact ⟨reassembly_isolated (key tail) halone hmixed (by decide +kernel), by decide +kernel⟩

end Examples

end Runs

end Tapip.Ip.Isolation
