import ComponentAttrs.Text.CodePoint
import ComponentAttrs.Proofs.Attribute.Languages
import ComponentAttrs.Proofs.Attribute.Marks

/-!
Between the two languages of well-formed names kebab and camel case lead back and forth without
loss, so a well-formed name denotes the same as its other spelling, with any lead in front.

* `kebabChars_camelChars`, `camelChars_kebabChars`: there and back in either language;
* `recoverable_of_mem_wellFormedNames`: well-formed names can be looked up under either spelling.
-/
namespace ComponentAttrs.Attribute

open ComponentAttrs.Text

/-! ## Letters and digits -/

theorem isDigit_iff {c : Char} : c.isDigit ↔ 0x30 ≤ c.toNat ∧ c.toNat ≤ 0x39 := by
  rw [Char.isDigit, Bool.and_eq_true, decide_eq_true_iff, decide_eq_true_iff]
  exact Iff.rfl

theorem isSmallOrDigit_iff {c : Char} : isSmallOrDigit c ↔
    0x61 ≤ c.toNat ∧ c.toNat ≤ 0x7A ∨ 0x30 ≤ c.toNat ∧ c.toNat ≤ 0x39 := by
  rw [isSmallOrDigit, Bool.or_eq_true, isSmallLetter_iff, isDigit_iff]

theorem isAlphanum_iff {c : Char} : c.isAlphanum ↔ isCapitalLetter c ∨ isSmallOrDigit c := by
  rw [Char.isAlphanum, Bool.or_eq_true, isAlpha_iff, isDigit_iff, isCapitalLetter_iff,
    isSmallOrDigit_iff, or_assoc]

section

variable {c : Char}

theorem isSmallOrDigit_of_isDigit (h : c.isDigit) : isSmallOrDigit c := by
  rw [isSmallOrDigit, h, Bool.or_true]

theorem not_isSmallLetter_of_isDigit (h : c.isDigit) : ¬ isSmallLetter c := by
  rw [isDigit_iff] at h
  rw [isSmallLetter_iff]
  omega

theorem not_isCapitalLetter_of_isSmallOrDigit (h : isSmallOrDigit c) : ¬ isCapitalLetter c := by
  rw [isSmallOrDigit_iff] at h
  rw [isCapitalLetter_iff]
  omega

theorem ne_hyphen_of_isSmallOrDigit (h : isSmallOrDigit c) : c ≠ '-' := by
  rintro rfl
  exact absurd h (by decide)

/-- A capital letter is the capital form of a small one. -/
theorem exists_toUpper_eq (h : isCapitalLetter c) : ∃ d, isSmallLetter d ∧ d.toUpper = c := by
  rw [isCapitalLetter_iff] at h
  have hcode : (Char.ofNat (c.toNat + 0x20)).toNat = c.toNat + 0x20 := by
    apply toNat_ofNat (by omega)
    rw [isHalf_iff]
    omega
  have hsmall : isSmallLetter (Char.ofNat (c.toNat + 0x20)) := by
    rw [isSmallLetter_iff]
    omega
  refine ⟨_, hsmall, ?_⟩
  rw [← Char.toNat_inj, toNat_toUpper hsmall, hcode, Nat.add_sub_cancel]

end

/-! ## Lowercase of letters and digits -/

theorem lowerAfter_cons_of_not_isCapitalLetter {c : Char} (h : c.toNat < 0xC0)
    (hc : ¬ isCapitalLetter c) (before cs : List Char) :
    lowerAfter before (c :: cs) = c :: lowerAfter (c :: before) cs := by
  have hself : IsLower c := by
    apply isLower_of_lowerCode_eq
    · rintro rfl
      exact absurd h (by decide)
    · rw [isCapitalLetter_iff] at hc
      rw [lowerCode_of_lt h, if_neg hc]
  have hsigma : c ≠ 'Σ' := by
    rintro rfl
    exact absurd h (by decide)
  rw [lowerAfter, if_neg hsigma, hself, List.singleton_append]

theorem lowerAfter_toUpper_cons {d : Char} (hd : isSmallLetter d) (before cs : List Char) :
    lowerAfter before (d.toUpper :: cs) = d :: lowerAfter (d.toUpper :: before) cs := by
  have hcode := toNat_toUpper hd
  have hcapital := isCapitalLetter_iff.mp (isCapitalLetter_toUpper hd)
  have hlower : lowerLetter d.toUpper = [d] := by
    have hdotted : d.toUpper ≠ 'İ' := by
      intro heq
      exact absurd (heq ▸ hcapital) (by decide)
    rw [lowerLetter, if_neg hdotted, lowerCode_of_lt (by omega), if_pos hcapital, hcode,
      Nat.sub_add_cancel (by omega), Char.ofNat_toNat]
  have hsigma : d.toUpper ≠ 'Σ' := by
    intro heq
    exact absurd (heq ▸ hcapital) (by decide)
  rw [lowerAfter, if_neg hsigma, hlower, List.singleton_append]

theorem lowerAfter_cons_of_isSmallOrDigit {c : Char} (h : isSmallOrDigit c)
    (before cs : List Char) :
    lowerAfter before (c :: cs) = c :: lowerAfter (c :: before) cs := by
  have hcode := isSmallOrDigit_iff.mp h
  exact lowerAfter_cons_of_not_isCapitalLetter (by omega)
    (not_isCapitalLetter_of_isSmallOrDigit h) before cs

theorem lowerAfter_hyphen_cons (before cs : List Char) :
    lowerAfter before ('-' :: cs) = '-' :: lowerAfter ('-' :: before) cs :=
  lowerAfter_cons_of_not_isCapitalLetter (by decide) (by decide) before cs

/-! ## There and back -/

theorem hyphenate_cons_of_not_isCapitalLetter {c : Char} (h : ¬ isCapitalLetter c)
    (before : Option Char) (cs : List Char) :
    hyphenate before (c :: cs) = c :: hyphenate (some c) cs := by
  rw [hyphenate, if_neg (by simp [h])]

theorem hyphenate_cons_of_isCapitalLetter {b c : Char} (h : isCapitalLetter c)
    (hb : b.isAlphanum) (cs : List Char) :
    hyphenate (some b) (c :: cs) = '-' :: c :: hyphenate (some c) cs := by
  rw [hyphenate, if_pos (by simp [h, hb])]

theorem camelChars_hyphen_cons_of_isDigit {c : Char} (h : c.isDigit) (cs : List Char) :
    camelChars ('-' :: c :: cs) = '-' :: c :: camelChars cs := by
  have hne := ne_hyphen_of_isSmallOrDigit (isSmallOrDigit_of_isDigit h)
  rw [camelChars, if_neg (by simp [not_isSmallLetter_of_isDigit h]), camelChars_cons_of_ne hne]

/-- Behind a letter or digit the kebab form of the camel form of a row is the row. -/
theorem lowerAfter_hyphenate_camelChars {cs : List Char}
    (h : isRow isSmallOrDigit isSmallOrDigit cs) {b : Char} (hb : b.isAlphanum)
    (before : List Char) :
    lowerAfter before (hyphenate (some b) (camelChars cs)) = cs := by
  fun_induction isRow isSmallOrDigit isSmallOrDigit cs generalizing b before with
  | case1 => rfl
  | case2 c cs ih =>
    rw [Bool.and_eq_true] at h
    have hhyphen : ¬ isCapitalLetter '-' := by decide
    rcases Bool.or_eq_true _ _ ▸ h.1 with hsmall | hdigit
    · have hcapital := isCapitalLetter_toUpper hsmall
      have hupper : c.toUpper.isAlphanum := isAlphanum_iff.mpr (.inl hcapital)
      rw [camelChars_hyphen_cons_of_isSmallLetter hsmall,
        hyphenate_cons_of_isCapitalLetter hcapital hb, lowerAfter_hyphen_cons,
        lowerAfter_toUpper_cons hsmall, ih h.2 hupper]
    · have hplain := isSmallOrDigit_of_isDigit hdigit
      have hc : c.isAlphanum := isAlphanum_iff.mpr (.inr hplain)
      rw [camelChars_hyphen_cons_of_isDigit hdigit, hyphenate_cons_of_not_isCapitalLetter hhyphen,
        hyphenate_cons_of_not_isCapitalLetter (not_isCapitalLetter_of_isSmallOrDigit hplain),
        lowerAfter_hyphen_cons, lowerAfter_cons_of_isSmallOrDigit hplain, ih h.2 hc]
  | case3 c cs _ ih =>
    rw [Bool.and_eq_true] at h
    have hc : c.isAlphanum := isAlphanum_iff.mpr (.inr h.1)
    rw [camelChars_cons_of_ne (ne_hyphen_of_isSmallOrDigit h.1),
      hyphenate_cons_of_not_isCapitalLetter (not_isCapitalLetter_of_isSmallOrDigit h.1),
      lowerAfter_cons_of_isSmallOrDigit h.1, ih h.2 hc]

/-- Behind a letter or digit the camel form of the kebab form of a row is the row. -/
theorem camelChars_lowerAfter_hyphenate {cs : List Char}
    (h : isRow Char.isAlphanum Char.isDigit cs) {b : Char} (hb : b.isAlphanum)
    (before : List Char) :
    camelChars (lowerAfter before (hyphenate (some b) cs)) = cs := by
  fun_induction isRow Char.isAlphanum Char.isDigit cs generalizing b before with
  | case1 => rfl
  | case2 c cs ih =>
    rw [Bool.and_eq_true] at h
    have hplain := isSmallOrDigit_of_isDigit h.1
    have hc : c.isAlphanum := isAlphanum_iff.mpr (.inr hplain)
    rw [hyphenate_cons_of_not_isCapitalLetter (by decide),
      hyphenate_cons_of_not_isCapitalLetter (not_isCapitalLetter_of_isSmallOrDigit hplain),
      lowerAfter_hyphen_cons, lowerAfter_cons_of_isSmallOrDigit hplain,
      camelChars_hyphen_cons_of_isDigit h.1, ih h.2 hc]
  | case3 c cs _ ih =>
    rw [Bool.and_eq_true] at h
    rcases isAlphanum_iff.mp h.1 with hcapital | hplain
    · obtain ⟨d, hd, rfl⟩ := exists_toUpper_eq hcapital
      rw [hyphenate_cons_of_isCapitalLetter hcapital hb, lowerAfter_hyphen_cons,
        lowerAfter_toUpper_cons hd, camelChars_hyphen_cons_of_isSmallLetter hd, ih h.2 h.1]
    · rw [hyphenate_cons_of_not_isCapitalLetter (not_isCapitalLetter_of_isSmallOrDigit hplain),
        lowerAfter_cons_of_isSmallOrDigit hplain,
        camelChars_cons_of_ne (ne_hyphen_of_isSmallOrDigit hplain), ih h.2 h.1]

theorem kebabChars_cons_of_isSmallOrDigit {c : Char} (h : isSmallOrDigit c) (cs : List Char) :
    kebabChars (c :: cs) = c :: lowerAfter [c] (hyphenate (some c) cs) := by
  rw [kebabChars,
    hyphenate_cons_of_not_isCapitalLetter (not_isCapitalLetter_of_isSmallOrDigit h), lowercase,
    lowerAfter_cons_of_isSmallOrDigit h]

theorem kebabChars_camelChars {cs : List Char} (h : cs ∈ kebabNames) :
    kebabChars (camelChars cs) = cs := by
  rw [mem_kebabNames_iff] at h
  cases cs with
  | nil => cases h
  | cons c cs =>
    rw [isHeaded, Bool.and_eq_true] at h
    have hc : c.isAlphanum := isAlphanum_iff.mpr (.inr h.1)
    rw [camelChars_cons_of_ne (ne_hyphen_of_isSmallOrDigit h.1),
      kebabChars_cons_of_isSmallOrDigit h.1, lowerAfter_hyphenate_camelChars h.2 hc]

theorem camelChars_kebabChars {cs : List Char} (h : cs ∈ camelNames) :
    camelChars (kebabChars cs) = cs := by
  rw [mem_camelNames_iff] at h
  cases cs with
  | nil => cases h
  | cons c cs =>
    rw [isHeaded, Bool.and_eq_true] at h
    have hc : c.isAlphanum := isAlphanum_iff.mpr (.inr h.1)
    rw [kebabChars_cons_of_isSmallOrDigit h.1,
      camelChars_cons_of_ne (ne_hyphen_of_isSmallOrDigit h.1), camelChars_lowerAfter_hyphenate h.2 hc]

theorem toKebab_toCamel_of_mem {name : String} (h : name.toList ∈ kebabNames) :
    toKebab (toCamel name) = name := by
  rw [toKebab, toCamel, String.toList_ofList, kebabChars_camelChars h, String.ofList_toList]

theorem toCamel_toKebab_of_mem {name : String} (h : name.toList ∈ camelNames) :
    toCamel (toKebab name) = name := by
  rw [toKebab, toCamel, String.toList_ofList, camelChars_kebabChars h, String.ofList_toList]

/-! ## Looking well-formed names up -/

theorem eq_hyphen_of_mem_row {plain behind : Char → Bool} {cs : List Char}
    (h : isRow plain behind cs) {d : Char} (hd : d ∈ cs) (hplain : ¬ plain d)
    (hbehind : ¬ behind d) : d = '-' := by
  fun_induction isRow plain behind cs with
  | case1 => cases hd
  | case2 c cs ih =>
    rw [Bool.and_eq_true] at h
    rcases List.mem_cons.mp hd with rfl | hd
    · rfl
    · rcases List.mem_cons.mp hd with rfl | hd
      · exact absurd h.1 hbehind
      · exact ih h.2 hd
  | case3 c cs _ ih =>
    rw [Bool.and_eq_true] at h
    rcases List.mem_cons.mp hd with rfl | hd
    · exact absurd h.1 hplain
    · exact ih h.2 hd

theorem not_mem_of_isHeaded {first plain behind : Char → Bool} {cs : List Char}
    (h : isHeaded first plain behind cs) {d : Char} (hfirst : ¬ first d) (hplain : ¬ plain d)
    (hbehind : ¬ behind d) (hd : d ≠ '-') : d ∉ cs := by
  cases cs with
  | nil => cases h
  | cons c cs =>
    rw [isHeaded, Bool.and_eq_true] at h
    intro hmem
    rcases List.mem_cons.mp hmem with rfl | hmem
    · exact hfirst h.1
    · exact hd (eq_hyphen_of_mem_row h.2 hmem hplain hbehind)

/-- Well-formed names are made of letters, digits and hyphens. -/
theorem isAlphanum_of_mem_wellFormedNames {cs : List Char} (h : cs ∈ wellFormedNames) {d : Char}
    (hd : d ∈ cs) (hne : d ≠ '-') : d.isAlphanum := by
  apply Decidable.byContradiction
  intro hno
  have hplain : ¬ isSmallOrDigit d := fun hplain => hno (isAlphanum_iff.mpr (.inr hplain))
  have hdigit : ¬ d.isDigit := fun hdigit => hplain (isSmallOrDigit_of_isDigit hdigit)
  rcases mem_wellFormedNames_iff.mp h with h | h
  · exact not_mem_of_isHeaded h hplain hplain hplain hne hd
  · exact not_mem_of_isHeaded h hplain hno hdigit hne hd

theorem findLead?_eq_none_of_not_mem {name : String} (hcolon : ':' ∉ name.toList)
    (hat : '@' ∉ name.toList) : Grammar.standard.findLead? name = none :=
  findLead?_eq_none_of_head?_ne hcolon fun h => hat (List.mem_of_head? h)

theorem recoverable_of_mem_wellFormedNames {name : String} (h : name.toList ∈ wellFormedNames) :
    Recoverable name := by
  have hkebab : toKebab name ∈ variants name := by simp [variants]
  have hunled : Grammar.standard.findLead? (toKebab name) = none := by
    apply findLead?_eq_none_of_not_mem
    · rw [mem_toList_of_mem_variants (by decide) hkebab]
      exact fun hmem => absurd (isAlphanum_of_mem_wellFormedNames h hmem (by decide)) (by decide)
    · rw [mem_toList_of_mem_variants (by decide) hkebab]
      exact fun hmem => absurd (isAlphanum_of_mem_wellFormedNames h hmem (by decide)) (by decide)
  -- a kebab name comes back from its camel form, a camel name is the camel form of its kebab form
  rcases Language.mem_add _ _ _ |>.mp h with h | h
  · have hback := toKebab_toCamel_of_mem h
    have hself : toKebab name = name := by
      rw [← hback, toKebab_toKebab]
    exact ⟨hunled, .inl hself.symm, by rw [hself, hback]⟩
  · have hback := toCamel_toKebab_of_mem h
    exact ⟨hunled, .inr hback.symm, by rw [hback]⟩

end ComponentAttrs.Attribute
