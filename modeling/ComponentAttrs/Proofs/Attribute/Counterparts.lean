import Mathlib.Data.Set.Function
import ComponentAttrs.Proofs.Attribute.WellFormed

/-!
Every well-formed name has one counterpart in the other spelling, and it denotes the two of them and
nothing else, whatever lead it is written with.

* `kebabNames_camelNames_bijOn`: kebab and camel names are the same names in two spellings;
* `wellFormedNames_denote_both_spellings`: what well-formed names denote, by which they fall into
  classes of names for the same thing.
-/
namespace ComponentAttrs.Attribute

open ComponentAttrs.Text

/-- The names that belong to a language. -/
def namesIn (l : Language Char) : Set String := {name | name.toList ∈ l}

/-! ## From one language to the other -/

theorem isRow_cons_of_ne {plain behind : Char → Bool} {c : Char} (h : c ≠ '-')
    (cs : List Char) : isRow plain behind (c :: cs) = (plain c && isRow plain behind cs) := by
  rw [isRow]
  rintro _ _ rfl
  exact absurd rfl h

/-- The camel form of a kebab row is a camel row. -/
theorem isRow_camelChars {cs : List Char} (h : isRow isSmallOrDigit isSmallOrDigit cs) :
    isRow Char.isAlphanum Char.isDigit (camelChars cs) := by
  fun_induction isRow isSmallOrDigit isSmallOrDigit cs with
  | case1 => rfl
  | case2 c cs ih =>
    rw [Bool.and_eq_true] at h
    rcases Bool.or_eq_true _ _ ▸ h.1 with hsmall | hdigit
    · have hcapital := isCapitalLetter_toUpper hsmall
      rw [camelChars_hyphen_cons_of_isSmallLetter hsmall,
        isRow_cons_of_ne (ne_hyphen_of_isCapitalLetter hcapital), Bool.and_eq_true]
      exact ⟨isAlphanum_iff.mpr (.inl hcapital), ih h.2⟩
    · rw [camelChars_hyphen_cons_of_isDigit hdigit, isRow, Bool.and_eq_true]
      exact ⟨hdigit, ih h.2⟩
  | case3 c cs _ ih =>
    rw [Bool.and_eq_true] at h
    have hne := ne_hyphen_of_isSmallOrDigit h.1
    rw [camelChars_cons_of_ne hne, isRow_cons_of_ne hne, Bool.and_eq_true]
    exact ⟨isAlphanum_iff.mpr (.inr h.1), ih h.2⟩

/-- Behind a letter or digit the kebab form of a camel row is a kebab row. -/
theorem isRow_lowerAfter_hyphenate {cs : List Char} (h : isRow Char.isAlphanum Char.isDigit cs)
    {b : Char} (hb : b.isAlphanum) (before : List Char) :
    isRow isSmallOrDigit isSmallOrDigit (lowerAfter before (hyphenate (some b) cs)) := by
  fun_induction isRow Char.isAlphanum Char.isDigit cs generalizing b before with
  | case1 => rfl
  | case2 c cs ih =>
    rw [Bool.and_eq_true] at h
    have hplain := isSmallOrDigit_of_isDigit h.1
    rw [hyphenate_cons_of_not_isCapitalLetter (by decide),
      hyphenate_cons_of_not_isCapitalLetter (not_isCapitalLetter_of_isSmallOrDigit hplain),
      lowerAfter_hyphen_cons, lowerAfter_cons_of_isSmallOrDigit hplain, isRow, Bool.and_eq_true]
    exact ⟨hplain, ih h.2 (isAlphanum_iff.mpr (.inr hplain)) _⟩
  | case3 c cs _ ih =>
    rw [Bool.and_eq_true] at h
    rcases isAlphanum_iff.mp h.1 with hcapital | hplain
    · obtain ⟨d, hd, rfl⟩ := exists_toUpper_eq hcapital
      rw [hyphenate_cons_of_isCapitalLetter hcapital hb, lowerAfter_hyphen_cons,
        lowerAfter_toUpper_cons hd, isRow, Bool.and_eq_true]
      exact ⟨by rw [isSmallOrDigit, hd, Bool.true_or], ih h.2 h.1 _⟩
    · rw [hyphenate_cons_of_not_isCapitalLetter (not_isCapitalLetter_of_isSmallOrDigit hplain),
        lowerAfter_cons_of_isSmallOrDigit hplain,
        isRow_cons_of_ne (ne_hyphen_of_isSmallOrDigit hplain), Bool.and_eq_true]
      exact ⟨hplain, ih h.2 h.1 _⟩

theorem camelChars_mem_camelNames {cs : List Char} (h : cs ∈ kebabNames) :
    camelChars cs ∈ camelNames := by
  rw [mem_kebabNames_iff] at h
  rw [mem_camelNames_iff]
  cases cs with
  | nil => cases h
  | cons c cs =>
    rw [isHeaded, Bool.and_eq_true] at h
    rw [camelChars_cons_of_ne (ne_hyphen_of_isSmallOrDigit h.1), isHeaded, Bool.and_eq_true]
    exact ⟨h.1, isRow_camelChars h.2⟩

theorem kebabChars_mem_kebabNames {cs : List Char} (h : cs ∈ camelNames) :
    kebabChars cs ∈ kebabNames := by
  rw [mem_camelNames_iff] at h
  rw [mem_kebabNames_iff]
  cases cs with
  | nil => cases h
  | cons c cs =>
    rw [isHeaded, Bool.and_eq_true] at h
    rw [kebabChars_cons_of_isSmallOrDigit h.1, isHeaded, Bool.and_eq_true]
    exact ⟨h.1, isRow_lowerAfter_hyphenate h.2 (isAlphanum_iff.mpr (.inr h.1)) _⟩

theorem mapsTo_toCamel : Set.MapsTo toCamel (namesIn kebabNames) (namesIn camelNames) := by
  intro name h
  show (toCamel name).toList ∈ camelNames
  rw [toCamel, String.toList_ofList]
  exact camelChars_mem_camelNames h

theorem mapsTo_toKebab : Set.MapsTo toKebab (namesIn camelNames) (namesIn kebabNames) := by
  intro name h
  show (toKebab name).toList ∈ kebabNames
  rw [toKebab, String.toList_ofList]
  exact kebabChars_mem_kebabNames h

theorem invOn_toKebab_toCamel :
    Set.InvOn toKebab toCamel (namesIn kebabNames) (namesIn camelNames) :=
  ⟨fun _ h => toKebab_toCamel_of_mem h, fun _ h => toCamel_toKebab_of_mem h⟩

/-- **Two spellings of the same names.** Camel case leads from the kebab names to the camel names,
kebab case leads back, and each undoes the other: no name is lost and no two share a spelling. -/
theorem kebabNames_camelNames_bijOn :
    Set.MapsTo toCamel (namesIn kebabNames) (namesIn camelNames) ∧
    Set.MapsTo toKebab (namesIn camelNames) (namesIn kebabNames) ∧
    (∀ k ∈ namesIn kebabNames, toKebab (toCamel k) = k) ∧
    (∀ c ∈ namesIn camelNames, toCamel (toKebab c) = c) ∧
    Set.BijOn toCamel (namesIn kebabNames) (namesIn camelNames) ∧
    Set.BijOn toKebab (namesIn camelNames) (namesIn kebabNames) :=
  ⟨mapsTo_toCamel, mapsTo_toKebab, invOn_toKebab_toCamel.1, invOn_toKebab_toCamel.2,
    invOn_toKebab_toCamel.bijOn mapsTo_toCamel mapsTo_toKebab,
    invOn_toKebab_toCamel.symm.bijOn mapsTo_toKebab mapsTo_toCamel⟩

/-- A hyphen in front of a digit stays, one in front of a letter comes back. -/
theorem item_2_b_returns :
    "item-2-b" ∈ namesIn kebabNames ∧ toCamel "item-2-b" = "item-2B" ∧
    toKebab (toCamel "item-2-b") = "item-2-b" := by
  have hname : "item-2-b" ∈ namesIn kebabNames := mem_kebabNames_iff.mpr (by decide)
  exact ⟨hname, by decide, kebabNames_camelNames_bijOn.2.2.1 "item-2-b" hname⟩

/-! ## What well-formed names denote -/

/-- A name that is well formed in one spelling or the other. -/
def WellFormedName : Type := {name : String // name.toList ∈ wellFormedNames}

namespace WellFormedName

variable (x y : WellFormedName)

theorem matchesName_append_iff {lead : String} (h : lead ∈ "" :: Grammar.standard.leads)
    (declared : String) : Grammar.standard.matchesName (lead ++ x.val) declared ↔
      declared = toKebab x.val ∨ declared = toCamel (toKebab x.val) :=
  (recoverable_of_mem_wellFormedNames x.property).matchesName_append_iff h declared

/-- Among well-formed names, to be denoted is to have the same kebab form. -/
theorem matchesName_append_iff_toKebab_eq {lead : String}
    (h : lead ∈ "" :: Grammar.standard.leads) :
    Grammar.standard.matchesName (lead ++ x.val) y.val ↔ toKebab y.val = toKebab x.val := by
  have hx := recoverable_of_mem_wellFormedNames x.property
  have hy := recoverable_of_mem_wellFormedNames y.property
  rw [x.matchesName_append_iff h]
  constructor
  · exact hx.toKebab_eq
  · intro heq
    rw [← heq]
    exact hy.spelled

theorem matchesName_iff_toKebab_eq :
    Grammar.standard.matchesName x.val y.val ↔ toKebab y.val = toKebab x.val := by
  have h := matchesName_append_iff_toKebab_eq x y (List.mem_cons_self (a := ""))
  rwa [String.empty_append] at h

theorem equivalence_matchesName :
    Equivalence fun x y : WellFormedName => Grammar.standard.matchesName x.val y.val := by
  simp only [matchesName_iff_toKebab_eq]
  exact ⟨fun _ => rfl, Eq.symm, fun hxy hyz => hyz.trans hxy⟩

end WellFormedName

/-- **What well-formed names denote.** Behind any lead, or on its own, a well-formed name denotes
its kebab and its camel form and nothing else. So it is denoted by the names that it denotes, and
these denote the same as it does. -/
theorem wellFormedNames_denote_both_spellings :
    (∀ x : WellFormedName, ∀ p ∈ "" :: Grammar.standard.leads, ∀ declared,
      Grammar.standard.matchesName (p ++ x.val) declared ↔
        declared = toKebab x.val ∨ declared = toCamel (toKebab x.val)) ∧
    (Equivalence fun x y : WellFormedName => Grammar.standard.matchesName x.val y.val) ∧
    (∀ x y : WellFormedName, ∀ p ∈ "" :: Grammar.standard.leads,
      ∀ q ∈ "" :: Grammar.standard.leads,
      (Grammar.standard.matchesName (p ++ x.val) y.val ↔
        Grammar.standard.matchesName (q ++ y.val) x.val) ∧
      (Grammar.standard.matchesName (p ++ x.val) y.val → ∀ declared,
        Grammar.standard.matchesName (p ++ x.val) declared ↔
          Grammar.standard.matchesName (q ++ y.val) declared)) := by
  refine ⟨fun x p hp => x.matchesName_append_iff hp, WellFormedName.equivalence_matchesName, ?_⟩
  intro x y p hp q hq
  constructor
  · rw [x.matchesName_append_iff_toKebab_eq y hp, y.matchesName_append_iff_toKebab_eq x hq]
    exact eq_comm
  · intro h declared
    rw [x.matchesName_append_iff_toKebab_eq y hp] at h
    rw [x.matchesName_append_iff hp, y.matchesName_append_iff hq, h]

/-- A listener in kebab case denotes a name declared in camel case and the other way round. -/
theorem listener_denotes_both_spellings :
    "my-prop".toList ∈ wellFormedNames ∧ "v-on:" ∈ "" :: Grammar.standard.leads ∧
    Grammar.standard.matchesName ("v-on:" ++ "my-prop") "myProp" ∧
    ∀ declared, Grammar.standard.matchesName ("v-on:" ++ "my-prop") declared ↔
      declared = "my-prop" ∨ declared = "myProp" := by
  have hname : "my-prop".toList ∈ wellFormedNames := by decide
  have hlead : "v-on:" ∈ "" :: Grammar.standard.leads := by decide
  have hkebab : toKebab "my-prop" = "my-prop" := by decide
  have hcamel : toCamel "my-prop" = "myProp" := by decide
  have hdenotes := wellFormedNames_denote_both_spellings.1 ⟨"my-prop", hname⟩ "v-on:" hlead
  simp only [hkebab, hcamel] at hdenotes
  exact ⟨hname, hlead, (hdenotes "myProp").mpr (.inr rfl), hdenotes⟩

end ComponentAttrs.Attribute
