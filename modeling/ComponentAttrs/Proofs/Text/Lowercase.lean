import ComponentAttrs.Text.Lowercase

/-!
Lowercase of a text is final: mapped once more it stays as it is, whatever letters it is made of.
The one fact about the table is that no lowercase form is a letter with a lowercase form of its own.
A sigma at the end of a word takes letters of the alphabet alike, small or capital.
-/
namespace ComponentAttrs.Text

/-! ## The table -/

/-- No lowercase form of the first run is a letter of the second: the two stretches lie apart, or
the forms fall between the letters. -/
def LetterRun.clears (r s : LetterRun) : Bool :=
  Nat.blt (r.image + (r.last - r.first)) s.first || Nat.blt s.last r.image ||
    ((Nat.beq (r.step % 2) 0 || Nat.beq r.first r.last) && Nat.beq (s.step % 2) 0 &&
      Nat.beq ((r.image + s.first) % 2) 1)

theorem LetterRun.image?_eq_none_of_clears {r s : LetterRun} (h : r.clears s) {n m : Nat}
    (hm : r.image? n = some m) : s.image? m = none := by
  unfold image? at hm ⊢
  split at hm
  · next hr =>
    obtain rfl := Option.some.inj hm
    simp only [clears, Bool.or_eq_true, Bool.and_eq_true, Nat.blt_eq, Nat.beq_eq] at h
    rw [if_neg]
    rintro ⟨hfirst, hlast, hstep⟩
    rcases h with (h | h) | ⟨⟨hr2, hs2⟩, hodd⟩
    · omega
    · omega
    · -- the form and the first letter differ by an odd number, the letters by even ones
      have heven : (n - r.first) % 2 = 0 := by
        rcases hr2 with h2 | hone
        · have := Nat.mod_mod_of_dvd (n - r.first) (Nat.dvd_of_mod_eq_zero h2)
          rw [hr.2.2] at this
          omega
        · omega
      have hletters := Nat.mod_mod_of_dvd (r.image + (n - r.first) - s.first)
        (Nat.dvd_of_mod_eq_zero hs2)
      rw [hstep] at hletters
      omega
  · cases hm

theorem lowercaseRuns_clear :
    (lowercaseRuns.all fun r => lowercaseRuns.all fun s => r.clears s) = true := by
  decide +kernel

theorem lowerCode_lowerCode (n : Nat) : lowerCode (lowerCode n) = lowerCode n := by
  unfold lowerCode
  cases hn : lowercaseRuns.findSome? (·.image? n) with
  | none => simp only [Option.getD_none, hn]
  | some m =>
    obtain ⟨r, hr, hm⟩ := List.exists_of_findSome?_eq_some hn
    have hnone : lowercaseRuns.findSome? (·.image? m) = none := by
      rw [List.findSome?_eq_none_iff]
      intro s hs
      have hclear := List.all_eq_true.mp (List.all_eq_true.mp lowercaseRuns_clear r hr) s hs
      exact LetterRun.image?_eq_none_of_clears hclear hm
    simp only [Option.getD_some, hnone, Option.getD_none]

/-- The dotted capital I as a run of its own. -/
def dottedI : LetterRun := ⟨0x130, 0x130, 1, 0x69⟩

theorem lowercaseRuns_clear_dottedI : (lowercaseRuns.all (·.clears dottedI)) = true := by
  decide +kernel

theorem lowerCode_ne_dottedI {n : Nat} (h : n ≠ 0x130) : lowerCode n ≠ 0x130 := by
  unfold lowerCode
  cases hn : lowercaseRuns.findSome? (·.image? n) with
  | none => exact h
  | some m =>
    obtain ⟨r, hr, hm⟩ := List.exists_of_findSome?_eq_some hn
    have hclear := List.all_eq_true.mp lowercaseRuns_clear_dottedI r hr
    have hnone := LetterRun.image?_eq_none_of_clears hclear hm
    rintro rfl
    exact absurd hnone (by decide)

/-- All runs but the first lie beyond the letters of the alphabet. -/
theorem lowerCode_of_lt {n : Nat} (h : n < 0xC0) :
    lowerCode n = if 0x41 ≤ n ∧ n ≤ 0x5A then n + 0x20 else n := by
  have hbeyond : ∀ r ∈ lowercaseRuns.tail, 0xC0 ≤ r.first := by decide +kernel
  have hrest : lowercaseRuns.tail.findSome? (·.image? n) = none := by
    rw [List.findSome?_eq_none_iff]
    intro r hr
    have := hbeyond r hr
    unfold LetterRun.image?
    rw [if_neg]
    omega
  have hsplit : lowercaseRuns = ⟨0x41, 0x5A, 1, 0x61⟩ :: lowercaseRuns.tail := rfl
  rw [lowerCode, hsplit, List.findSome?_cons, hrest, LetterRun.image?]
  by_cases hn : 0x41 ≤ n ∧ n ≤ 0x5A
  · rw [if_pos ⟨hn.1, hn.2, Nat.mod_one _⟩, if_pos hn]
    simp only [Option.getD_some]
    omega
  · rw [if_neg fun h => hn ⟨h.1, h.2.1⟩, if_neg hn]
    rfl

/-- No letter turns into a character in front of the letters. -/
theorem lowerCode_eq_self_of_lt {n : Nat} (h : lowerCode n < 0x41) : lowerCode n = n := by
  have himage : ∀ r ∈ lowercaseRuns, 0x41 ≤ r.image := by decide +kernel
  unfold lowerCode at h ⊢
  cases hn : lowercaseRuns.findSome? (·.image? n) with
  | none => rfl
  | some m =>
    obtain ⟨r, hr, hm⟩ := List.exists_of_findSome?_eq_some hn
    have := himage r hr
    unfold LetterRun.image? at hm
    split at hm
    · obtain rfl := Option.some.inj hm
      rw [hn, Option.getD_some] at h
      omega
    · cases hm

/-! ## Letters -/

/-- A character that is its own lowercase form. -/
def IsLower (c : Char) : Prop := lowerLetter c = [c]

instance (c : Char) : Decidable (IsLower c) := inferInstanceAs (Decidable (_ = _))

theorem isLower_of_lowerCode_eq {c : Char} (h : c ≠ 'İ') (hc : lowerCode c.toNat = c.toNat) :
    IsLower c := by
  rw [IsLower, lowerLetter, if_neg h, hc, Char.ofNat_toNat]

theorem toNat_ofNat_or_zero (n : Nat) :
    (Char.ofNat n).toNat = n ∨ (Char.ofNat n).toNat = 0 := by
  by_cases h : n.isValidChar
  · have hcode : Char.ofNat n = Char.ofNatAux n h := dif_pos h
    exact .inl (congrArg Char.toNat hcode)
  · have hnull : Char.ofNat n = '\x00' := dif_neg h
    exact .inr (congrArg Char.toNat hnull)

theorem isLower_of_mem_lowerLetter {c d : Char} (h : d ∈ lowerLetter c) : IsLower d := by
  unfold lowerLetter at h
  split at h
  · simp only [List.mem_cons, List.not_mem_nil, or_false] at h
    rcases h with rfl | rfl <;> decide +kernel
  · next hc =>
    have hcode : c.toNat ≠ 0x130 := fun heq => hc (Char.toNat_inj.mp heq)
    obtain rfl := List.mem_singleton.mp h
    rcases toNat_ofNat_or_zero (lowerCode c.toNat) with heq | heq
    · apply isLower_of_lowerCode_eq
      · intro hdotted
        rw [hdotted] at heq
        exact lowerCode_ne_dottedI hcode heq.symm
      · rw [heq, lowerCode_lowerCode]
    · apply isLower_of_lowerCode_eq
      · intro hdotted
        rw [hdotted] at heq
        exact absurd heq (by decide)
      · rw [heq, lowerCode_of_lt (by decide)]
        rfl

theorem isLower_lowerSigma (before after : List Char) : IsLower (lowerSigma before after) := by
  unfold lowerSigma
  split <;> decide +kernel

/-! ## Words -/

theorem isAlpha_iff {c : Char} :
    c.isAlpha ↔ 0x41 ≤ c.toNat ∧ c.toNat ≤ 0x5A ∨ 0x61 ≤ c.toNat ∧ c.toNat ≤ 0x7A := by
  have hupper : c.isUpper ↔ 0x41 ≤ c.toNat ∧ c.toNat ≤ 0x5A := decide_eq_true_iff
  have hlower : c.isLower ↔ 0x61 ≤ c.toNat ∧ c.toNat ≤ 0x7A := by
    show (decide (c.val ≥ 0x61) && decide (c.val ≤ 0x7A)) = true ↔ _
    rw [Bool.and_eq_true, decide_eq_true_iff, decide_eq_true_iff]
    exact Iff.rfl
  have halpha : c.isAlpha ↔ c.isUpper ∨ c.isLower := Bool.or_eq_true_iff
  rw [halpha, hupper, hlower]

theorem isCased_of_isAlpha {c : Char} (h : c.isAlpha) : isCased c := by
  rw [isCased, List.any_eq_true]
  rcases isAlpha_iff.mp h with h | h
  · exact ⟨(0x41, 0x5A), by decide, by simpa using h⟩
  · exact ⟨(0x61, 0x7A), by decide, by simpa using h⟩

theorem not_isCaseIgnorable_of_isAlpha {c : Char} (h : c.isAlpha) : ¬ isCaseIgnorable c := by
  have hapart : ∀ r ∈ caseIgnorableRanges,
      r.2 < 0x41 ∨ 0x5A < r.1 ∧ r.2 < 0x61 ∨ 0x7A < r.1 := by decide +kernel
  rw [isAlpha_iff] at h
  rw [isCaseIgnorable, List.any_eq_true]
  rintro ⟨r, hr, hin⟩
  have := hapart r hr
  rw [Bool.and_eq_true, decide_eq_true_iff, decide_eq_true_iff] at hin
  omega

theorem startsCased_cons_of_isCaseIgnorable {c : Char} (h : isCaseIgnorable c) (cs : List Char) :
    startsCased (c :: cs) = startsCased cs := by
  rw [startsCased, List.dropWhile_cons_of_pos h, startsCased]

theorem startsCased_cons_of_not_isCaseIgnorable {c : Char} (h : ¬ isCaseIgnorable c)
    (cs : List Char) : startsCased (c :: cs) = isCased c := by
  rw [startsCased, List.dropWhile_cons_of_neg h]

theorem startsCased_cons_of_isAlpha {c : Char} (h : c.isAlpha) (cs : List Char) :
    startsCased (c :: cs) = true := by
  rw [startsCased_cons_of_not_isCaseIgnorable (not_isCaseIgnorable_of_isAlpha h),
    isCased_of_isAlpha h]

/-! ## Texts -/

theorem isLower_of_mem_lowerAfter {before cs : List Char} {d : Char}
    (h : d ∈ lowerAfter before cs) : IsLower d := by
  induction cs generalizing before with
  | nil => cases h
  | cons c rest ih =>
    rw [lowerAfter, List.mem_append] at h
    rcases h with h | h
    · split at h
      · rw [List.mem_singleton.mp h]
        exact isLower_lowerSigma before rest
      · exact isLower_of_mem_lowerLetter h
    · exact ih h

theorem isLower_of_mem_lowercase {cs : List Char} {d : Char} (h : d ∈ lowercase cs) : IsLower d :=
  isLower_of_mem_lowerAfter h

theorem lowerAfter_eq_self {cs : List Char} (h : ∀ c ∈ cs, IsLower c) (before : List Char) :
    lowerAfter before cs = cs := by
  induction cs generalizing before with
  | nil => rfl
  | cons c rest ih =>
    have hc : IsLower c := h c (List.mem_cons_self ..)
    have hsigma : c ≠ 'Σ' := by
      rintro rfl
      exact absurd hc (by decide +kernel)
    rw [lowerAfter, if_neg hsigma, hc, ih fun d hd => h d (List.mem_cons_of_mem _ hd)]
    rfl

theorem lowercase_eq_self {cs : List Char} (h : ∀ c ∈ cs, IsLower c) : lowercase cs = cs :=
  lowerAfter_eq_self h []

end ComponentAttrs.Text
