import ComponentAttrs.Proofs.Attribute.Recovery

/-!
Characters that no spelling touches. The characters in front of the letters stay where they are in
kebab and camel case, and nothing turns into one of them; only hyphens come and go. So a name has a
dot, a colon or an at sign exactly if each of its spellings has.
-/
namespace ComponentAttrs.Attribute

open ComponentAttrs.Text

/-- A character in front of the letters that is no hyphen. -/
def IsMark (c : Char) : Prop := 0 < c.toNat ∧ c.toNat < 0x41 ∧ c ≠ '-'

instance (c : Char) : Decidable (IsMark c) := inferInstanceAs (Decidable (_ ∧ _))

section

variable {d : Char} (hd : IsMark d)

include hd

theorem IsMark.not_isCapitalLetter : ¬ isCapitalLetter d := by
  have := hd.2.1
  rw [isCapitalLetter_iff]
  omega

theorem IsMark.not_isSmallLetter : ¬ isSmallLetter d := by
  have := hd.2.1
  rw [isSmallLetter_iff]
  omega

theorem mem_lowerLetter_iff (c : Char) : d ∈ lowerLetter c ↔ d = c := by
  have hlt := hd.2.1
  have hpos := hd.1
  constructor
  · intro h
    unfold lowerLetter at h
    split at h
    · -- the one capital whose lowercase is two characters, none of them in front of the letters
      simp only [List.mem_cons, List.not_mem_nil, or_false] at h
      rcases h with rfl | rfl
      · exact absurd hlt (by decide)
      · exact absurd hlt (by decide)
    · obtain rfl := List.mem_singleton.mp h
      rcases toNat_ofNat_or_zero (lowerCode c.toNat) with hcode | hcode
      · rw [hcode] at hlt
        rw [lowerCode_eq_self_of_lt hlt, Char.ofNat_toNat]
      · omega
  · rintro rfl
    have hself : lowerCode d.toNat = d.toNat := by
      rw [lowerCode_of_lt (by omega), if_neg (by omega)]
    have hdotted : d ≠ 'İ' := by
      rintro rfl
      exact absurd hlt (by decide)
    rw [lowerLetter, if_neg hdotted, hself, Char.ofNat_toNat]
    exact List.mem_singleton_self d

theorem mem_lowerAfter_iff (before cs : List Char) : d ∈ lowerAfter before cs ↔ d ∈ cs := by
  induction cs generalizing before with
  | nil => rfl
  | cons c cs ih =>
    have hletter : d ∈ (if c = 'Σ' then [lowerSigma before cs] else lowerLetter c) ↔ d = c := by
      split
      · next hc =>
        have hsigma : d ≠ lowerSigma before cs ∧ d ≠ 'Σ' := by
          have hlt := hd.2.1
          unfold lowerSigma
          refine ⟨?_, ?_⟩
          · split <;> (rintro rfl; exact absurd hlt (by decide))
          · rintro rfl
            exact absurd hlt (by decide)
        simp [hc, hsigma.1, hsigma.2]
      · exact mem_lowerLetter_iff hd c
    rw [lowerAfter, List.mem_append, hletter, ih, List.mem_cons]

theorem mem_hyphenate_iff (before : Option Char) (cs : List Char) :
    d ∈ hyphenate before cs ↔ d ∈ cs := by
  have hhyphen := hd.2.2
  induction cs generalizing before with
  | nil => rfl
  | cons c cs ih =>
    unfold hyphenate
    split <;> simp [ih, hhyphen]

theorem mem_camelChars_iff (cs : List Char) : d ∈ camelChars cs ↔ d ∈ cs := by
  fun_induction camelChars cs with
  | case1 => rfl
  | case2 c => rfl
  | case3 c e rest h ih =>
    rw [Bool.and_eq_true, decide_eq_true_iff] at h
    have hupper : d ≠ e.toUpper := by
      rintro rfl
      exact hd.not_isCapitalLetter (isCapitalLetter_toUpper h.2)
    have hsmall : d ≠ e := by
      rintro rfl
      exact hd.not_isSmallLetter h.2
    simp [ih, h.1, hd.2.2, hupper, hsmall]
  | case4 c e rest _ ih =>
    rw [List.mem_cons, ih]
    exact List.mem_cons.symm

/-- A spelling of a name has the marks of the name. -/
theorem mem_toList_of_mem_variants {name spelling : String} (h : spelling ∈ variants name) :
    d ∈ spelling.toList ↔ d ∈ name.toList := by
  simp only [variants, List.mem_cons, List.not_mem_nil, or_false] at h
  rcases h with rfl | rfl | rfl
  · rfl
  · rw [toCamel, String.toList_ofList]
    exact mem_camelChars_iff hd _
  · rw [toKebab, String.toList_ofList, kebabChars, lowercase, mem_lowerAfter_iff hd]
    exact mem_hyphenate_iff hd _ _

end

end ComponentAttrs.Attribute
