import ComponentAttrs.Attribute.Grammar
import ComponentAttrs.Proofs.Text.Lowercase

/-!
Laws of the two spellings that hold for any text: both are final, a kebab form has no capital letter
to put a hyphen in front of, and a camel form has no hyphen to fold. `displayNames` are the spellings
that a listing makes of a name.
-/
namespace ComponentAttrs.Attribute

open ComponentAttrs.Text

/-! ## Letters -/

theorem isCapitalLetter_iff {c : Char} :
    isCapitalLetter c ↔ 0x41 ≤ c.toNat ∧ c.toNat ≤ 0x5A := by
  rw [isCapitalLetter, Bool.and_eq_true, decide_eq_true_iff, decide_eq_true_iff]
  exact Iff.rfl

theorem isSmallLetter_iff {c : Char} :
    isSmallLetter c ↔ 0x61 ≤ c.toNat ∧ c.toNat ≤ 0x7A := by
  rw [isSmallLetter, Bool.and_eq_true, decide_eq_true_iff, decide_eq_true_iff]
  exact Iff.rfl

theorem not_isCapitalLetter_of_isLower {c : Char} (h : IsLower c) : ¬ isCapitalLetter c := by
  rw [isCapitalLetter_iff]
  intro hc
  have hdotted : c ≠ 'İ' := by
    rintro rfl
    exact absurd hc (by decide)
  rw [IsLower, lowerLetter, if_neg hdotted, lowerCode_of_lt (by omega), if_pos hc,
    List.cons.injEq] at h
  have hnat := congrArg Char.toNat h.1
  rcases toNat_ofNat_or_zero (c.toNat + 0x20) with heq | heq
  · omega
  · omega

theorem toNat_toUpper {c : Char} (h : isSmallLetter c) : c.toUpper.toNat = c.toNat - 0x20 := by
  rw [isSmallLetter_iff] at h
  have hcase : 'a'.val ≤ c.val ∧ c.val ≤ 'z'.val := h
  have hupper : c.toUpper = _ := dif_pos hcase
  rw [hupper]
  change (c.val + ('A'.val - 'a'.val)).toNat = c.val.toNat - 0x20
  have hval : c.val.toNat = c.toNat := rfl
  rw [UInt32.toNat_add, show ('A'.val - 'a'.val).toNat = 2 ^ 32 - 0x20 by decide]
  omega

theorem isCapitalLetter_toUpper {c : Char} (h : isSmallLetter c) : isCapitalLetter c.toUpper := by
  have hsmall := isSmallLetter_iff.mp h
  rw [isCapitalLetter_iff, toNat_toUpper h]
  omega

theorem not_isSmallLetter_of_isCapitalLetter {c : Char} (h : isCapitalLetter c) :
    ¬ isSmallLetter c := by
  rw [isCapitalLetter_iff] at h
  rw [isSmallLetter_iff]
  omega

theorem ne_hyphen_of_isCapitalLetter {c : Char} (h : isCapitalLetter c) : c ≠ '-' := by
  rintro rfl
  exact absurd h (by decide)

/-! ## Camel case -/

theorem camelChars_cons_of_ne {c : Char} (h : c ≠ '-') (cs : List Char) :
    camelChars (c :: cs) = c :: camelChars cs := by
  cases cs with
  | nil => rfl
  | cons d rest => simp [camelChars, h]

theorem camelChars_hyphen_cons_of_isSmallLetter {c : Char} (h : isSmallLetter c)
    (cs : List Char) : camelChars ('-' :: c :: cs) = c.toUpper :: camelChars cs := by
  rw [camelChars, if_pos (by simp [h])]

theorem camelChars_hyphen_of_not_isSmallLetter {cs : List Char}
    (h : ¬ cs.head?.any isSmallLetter) : camelChars ('-' :: cs) = '-' :: camelChars cs := by
  cases cs with
  | nil => rfl
  | cons c cs =>
    have hc : isSmallLetter c = false := by simpa using h
    rw [camelChars, if_neg (by simp [hc])]

/-- The first character of a camel form is the first one of the text, or a capital letter. -/
theorem camelChars_cons (c : Char) (cs : List Char) :
    ∃ d ds, camelChars (c :: cs) = d :: ds ∧ (d = c ∨ isCapitalLetter d) := by
  cases cs with
  | nil => exact ⟨c, [], rfl, .inl rfl⟩
  | cons d rest =>
    unfold camelChars
    split
    · next h =>
      rw [Bool.and_eq_true] at h
      exact ⟨_, _, rfl, .inr (isCapitalLetter_toUpper h.2)⟩
    · exact ⟨_, _, rfl, .inl rfl⟩

theorem camelChars_camelChars (cs : List Char) : camelChars (camelChars cs) = camelChars cs := by
  fun_induction camelChars cs with
  | case1 => rfl
  | case2 c => rfl
  | case3 c d rest h ih =>
    rw [Bool.and_eq_true] at h
    have hcapital := isCapitalLetter_toUpper h.2
    rw [camelChars_cons_of_ne (ne_hyphen_of_isCapitalLetter hcapital), ih]
  | case4 c d rest h ih =>
    by_cases hc : c = '-'
    · -- the hyphen stays, since what follows it is no small letter in the camel form either
      obtain ⟨e, es, heq, hhead⟩ := camelChars_cons d rest
      have hsmall : ¬ isSmallLetter e := by
        rcases hhead with rfl | hcapital
        · simpa [hc] using h
        · exact not_isSmallLetter_of_isCapitalLetter hcapital
      rw [heq] at ih ⊢
      rw [camelChars, if_neg (by simp [hsmall]), ih]
    · rw [camelChars_cons_of_ne hc, ih]

theorem camelChars_eq_self {cs : List Char} (h : '-' ∉ cs) : camelChars cs = cs := by
  induction cs with
  | nil => rfl
  | cons c cs ih =>
    rw [List.mem_cons, not_or] at h
    rw [camelChars_cons_of_ne (Ne.symm h.1), ih h.2]

/-! ## Kebab case -/

theorem hyphenate_eq_self {cs : List Char} (h : ∀ c ∈ cs, ¬ isCapitalLetter c)
    (before : Option Char) : hyphenate before cs = cs := by
  induction cs generalizing before with
  | nil => rfl
  | cons c cs ih =>
    have hc := h c (List.mem_cons_self ..)
    rw [hyphenate, if_neg (by simp [hc]), ih fun d hd => h d (List.mem_cons_of_mem _ hd)]

theorem kebabChars_eq_self {cs : List Char} (h : ∀ c ∈ cs, IsLower c) : kebabChars cs = cs := by
  rw [kebabChars, hyphenate_eq_self fun c hc => not_isCapitalLetter_of_isLower (h c hc),
    lowercase_eq_self h]

theorem kebabChars_kebabChars (cs : List Char) : kebabChars (kebabChars cs) = kebabChars cs :=
  kebabChars_eq_self fun _ hc => isLower_of_mem_lowercase hc

/-! ## Names -/

theorem toCamel_toCamel (name : String) : toCamel (toCamel name) = toCamel name := by
  simp only [toCamel, String.toList_ofList, camelChars_camelChars]

theorem toKebab_toKebab (name : String) : toKebab (toKebab name) = toKebab name := by
  simp only [toKebab, String.toList_ofList, kebabChars_kebabChars]

theorem toCamel_eq_self {name : String} (h : '-' ∉ name.toList) : toCamel name = name := by
  rw [toCamel, camelChars_eq_self h, String.ofList_toList]

/-- The spellings under which a name is listed. -/
def displayNames (inTemplate : Bool) (name : String) : List String :=
  if inTemplate then [toKebab name, ":" ++ toKebab name, "v-bind:" ++ toKebab name]
  else if name.toList.contains '-' then [toCamel name]
  else [name]

end ComponentAttrs.Attribute
