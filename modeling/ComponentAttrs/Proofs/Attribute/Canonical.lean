import ComponentAttrs.Proofs.Attribute.WellFormed

/-!
Canonical forms of any text. Kebab and camel case are final, each in its own way. Kebab case of a
camel form puts a hyphen back where camel case has folded one, but only behind a letter or digit; so
the camel form of a name has its kebab form exactly if no other hyphen was folded.

* `Raises.lowerAfter_eq`: lowercase does not see which letters camel case has raised;
* `raises_hyphenate_camelChars`: what is put back, and how many hyphens are not;
* `canonical_forms`: the laws of both forms on all names.
-/
namespace ComponentAttrs.Attribute

open ComponentAttrs.Text

/-! ## Raised letters -/

/-- The first text is the second one with some small letters raised and some hyphens left out, as
many as the number says. -/
inductive Raises : Nat → List Char → List Char → Prop where
  | nil : Raises 0 [] []
  | keep {n : Nat} {cs ds : List Char} (c : Char) : Raises n cs ds → Raises n (c :: cs) (c :: ds)
  | raise {n : Nat} {cs ds : List Char} {d : Char} :
      isSmallLetter d → Raises n cs ds → Raises n (d.toUpper :: cs) (d :: ds)
  | leave {n : Nat} {cs ds : List Char} : Raises n cs ds → Raises (n + 1) cs ('-' :: ds)

theorem isAlpha_of_isSmallLetter {d : Char} (h : isSmallLetter d) : d.isAlpha :=
  isAlpha_iff.mpr (.inr (isSmallLetter_iff.mp h))

theorem isAlpha_toUpper {d : Char} (h : isSmallLetter d) : d.toUpper.isAlpha :=
  isAlpha_iff.mpr (.inl (isCapitalLetter_iff.mp (isCapitalLetter_toUpper h)))

theorem ne_dottedI_of_isAlpha {c : Char} (h : c.isAlpha) : c ≠ 'İ' := by
  rintro rfl
  exact absurd h (by decide)

namespace Raises

variable {n : Nat} {cs ds : List Char}

theorem startsCased_eq (h : Raises 0 cs ds) : startsCased cs = startsCased ds := by
  generalize hn : 0 = n at h
  induction h with
  | nil => rfl
  | keep c _ ih =>
    by_cases hc : isCaseIgnorable c
    · rw [startsCased_cons_of_isCaseIgnorable hc, startsCased_cons_of_isCaseIgnorable hc, ih hn]
    · rw [startsCased_cons_of_not_isCaseIgnorable hc, startsCased_cons_of_not_isCaseIgnorable hc]
  | raise hd _ _ =>
    rw [startsCased_cons_of_isAlpha (isAlpha_toUpper hd),
      startsCased_cons_of_isAlpha (isAlpha_of_isSmallLetter hd)]
  | leave _ _ => cases hn

/-- A sigma has the same letters around it, whichever of them are raised. -/
theorem lowerAfter_eq (h : Raises 0 cs ds) {before others : List Char}
    (hbefore : Raises 0 before others) : lowerAfter before cs = lowerAfter others ds := by
  generalize hn : 0 = n at h
  induction h generalizing before others with
  | nil => rfl
  | keep c hrest ih =>
    subst hn
    rw [lowerAfter, lowerAfter, ih (hbefore.keep c) rfl, lowerSigma, lowerSigma,
      hbefore.startsCased_eq, hrest.startsCased_eq]
  | raise hd _ ih =>
    rw [lowerAfter_toUpper_cons hd, lowerAfter_cons_of_isSmallOrDigit (by simp [isSmallOrDigit, hd]),
      ih (hbefore.raise hd) hn]
  | leave _ _ => cases hn

theorem length_add_count (h : Raises n cs ds) :
    cs.length + cs.count 'İ' + n = ds.length + ds.count 'İ' := by
  induction h with
  | nil => rfl
  | keep c _ ih =>
    simp only [List.length_cons, List.count_cons]
    omega
  | raise hd _ ih =>
    rw [List.length_cons, List.length_cons,
      List.count_cons_of_ne (ne_dottedI_of_isAlpha (isAlpha_toUpper hd)),
      List.count_cons_of_ne (ne_dottedI_of_isAlpha (isAlpha_of_isSmallLetter hd))]
    omega
  | leave _ ih =>
    rw [List.length_cons, List.count_cons_of_ne (by decide)]
    omega

/-- Lowercase of the second text is longer by the hyphens that the first one does not have. -/
theorem length_lowerAfter_add (h : Raises n cs ds) (before others : List Char) :
    (lowerAfter before cs).length + n = (lowerAfter others ds).length := by
  rw [length_lowerAfter, length_lowerAfter, h.length_add_count]

protected theorem refl (cs : List Char) : Raises 0 cs cs := by
  induction cs with
  | nil => exact .nil
  | cons c _ ih => exact ih.keep c

end Raises

/-! ## Hyphens that come back -/

/-- How many hyphens camel case folds that have no letter or digit in front of them. -/
def looseHyphens (before : Option Char) : List Char → Nat
  | [] => 0
  | c :: rest =>
    looseHyphens (some c) rest +
      if c = '-' && rest.head?.any isSmallLetter && !before.any Char.isAlphanum then 1 else 0

/-- Every hyphen in front of a small letter joins it to a letter or digit. -/
def HyphensJoin (name : String) : Prop :=
  ∀ front c back, name.toList = front ++ '-' :: c :: back → isSmallLetter c →
    front.getLast?.any Char.isAlphanum

theorem looseHyphens_cons_of_ne {c : Char} (h : c ≠ '-') (before : Option Char)
    (cs : List Char) : looseHyphens before (c :: cs) = looseHyphens (some c) cs := by
  simp [looseHyphens, h]

theorem looseHyphens_eq_zero_iff {before : Option Char} {cs : List Char} :
    looseHyphens before cs = 0 ↔ ∀ front c back, cs = front ++ '-' :: c :: back →
      isSmallLetter c → (front.getLast?.or before).any Char.isAlphanum := by
  induction cs generalizing before with
  | nil => simp [looseHyphens]
  | cons b rest ih =>
    have hlast : ∀ front : List Char,
        ((b :: front).getLast?.or before) = front.getLast?.or (some b) := by
      intro front
      cases h : front.getLast? <;> simp [List.getLast?_cons, h]
    rw [looseHyphens, Nat.add_eq_zero_iff, ih]
    constructor
    · rintro ⟨hrest, hhere⟩ front c back hsplit hc
      cases front with
      | nil =>
        obtain ⟨rfl, rfl⟩ := List.cons.inj hsplit
        simpa [hc] using hhere
      | cons a front =>
        obtain ⟨rfl, htail⟩ := List.cons.inj hsplit
        rw [hlast]
        exact hrest front c back htail hc
    · intro h
      constructor
      · intro front c back hsplit hc
        rw [← hlast]
        exact h (b :: front) c back (by rw [hsplit, List.cons_append]) hc
      · rw [if_neg]
        intro hloose
        simp only [Bool.and_eq_true, decide_eq_true_iff, Bool.not_eq_true'] at hloose
        obtain ⟨⟨rfl, hsmall⟩, hbefore⟩ := hloose
        cases rest with
        | nil => cases hsmall
        | cons c back =>
          have hjoined := h [] c back rfl hsmall
          rw [List.getLast?_nil, Option.none_or, hbefore] at hjoined
          cases hjoined

theorem hyphensJoin_iff {name : String} : HyphensJoin name ↔ looseHyphens none name.toList = 0 := by
  rw [looseHyphens_eq_zero_iff]
  simp only [Option.or_none]
  exact Iff.rfl

theorem HyphensJoin.of_forall {name : String}
    (h : ∀ front back, name.toList = front ++ '-' :: back → front.getLast?.any Char.isAlphanum) :
    HyphensJoin name :=
  fun front c back hsplit _ => h front (c :: back) hsplit

instance (name : String) : Decidable (HyphensJoin name) := decidable_of_iff _ hyphensJoin_iff.symm

/-- Kebab case puts back the hyphens that join, and no others. -/
theorem raises_hyphenate_camelChars (cs : List Char) {b d : Option Char}
    (hbd : b.any Char.isAlphanum = d.any Char.isAlphanum) :
    Raises (looseHyphens d cs) (hyphenate b (camelChars cs)) (hyphenate d cs) := by
  fun_induction camelChars cs generalizing b d with
  | case1 => exact .nil
  | case2 c =>
    have hnone : looseHyphens d [c] = 0 := by simp [looseHyphens]
    have hsame : hyphenate b [c] = hyphenate d [c] := by simp only [hyphenate, hbd]
    rw [hnone, hsame]
    exact .refl _
  | case3 c e rest h ih =>
    rw [Bool.and_eq_true, decide_eq_true_iff] at h
    obtain ⟨rfl, hsmall⟩ := h
    have hcapital := isCapitalLetter_toUpper hsmall
    have hplain : isSmallOrDigit e := by rw [isSmallOrDigit, hsmall, Bool.true_or]
    have hletters : (some e.toUpper).any Char.isAlphanum = (some e).any Char.isAlphanum := by
      rw [Option.any_some, Option.any_some, isAlphanum_iff.mpr (.inl hcapital),
        isAlphanum_iff.mpr (.inr hplain)]
    have hrest := (ih hletters).raise hsmall
    have hloose : looseHyphens d ('-' :: e :: rest) =
        looseHyphens (some e) rest + if d.any Char.isAlphanum then 0 else 1 := by
      rw [looseHyphens, looseHyphens_cons_of_ne (ne_hyphen_of_isSmallOrDigit hplain)]
      cases d.any Char.isAlphanum <;> simp [hsmall]
    have hback : hyphenate d ('-' :: e :: rest) = '-' :: e :: hyphenate (some e) rest := by
      rw [hyphenate_cons_of_not_isCapitalLetter (by decide),
        hyphenate_cons_of_not_isCapitalLetter (not_isCapitalLetter_of_isSmallOrDigit hplain)]
    rw [hloose, hback, hyphenate, hcapital, hbd, Bool.true_and]
    split
    · exact hrest.keep '-'
    · exact hrest.leave
  | case4 c e rest h ih =>
    have hrest := ih (b := some c) (d := some c) rfl
    have hloose : looseHyphens d (c :: e :: rest) = looseHyphens (some c) (e :: rest) := by
      rw [looseHyphens, List.head?_cons, Option.any_some,
        if_neg fun hc => h (Bool.and_elim_left hc), Nat.add_zero]
    rw [hloose, hyphenate, hyphenate, hbd]
    split
    · exact (hrest.keep c).keep '-'
    · exact hrest.keep c

/-! ## Laws of both forms -/

theorem toKebab_toCamel_eq_iff {name : String} :
    toKebab (toCamel name) = toKebab name ↔ HyphensJoin name := by
  have hraises := raises_hyphenate_camelChars name.toList (b := none) (d := none) rfl
  rw [hyphensJoin_iff, toKebab, toKebab, toCamel, String.toList_ofList, String.ofList_inj,
    kebabChars, kebabChars, lowercase, lowercase]
  constructor
  · intro h
    have hlength := hraises.length_lowerAfter_add [] []
    rw [h] at hlength
    omega
  · intro h
    rw [h] at hraises
    exact hraises.lowerAfter_eq .nil

/-- A name answers to another one, as it is written or in kebab case, if they have one kebab form. -/
theorem mem_variants_or_toKebab_mem_iff {name other : String} (h : HyphensJoin name) :
    other ∈ variants name ∨ toKebab other ∈ variants name ↔ toKebab other = toKebab name := by
  have hspellings : ∀ spelling ∈ variants name, toKebab spelling = toKebab name := by
    intro spelling hs
    simp only [variants, List.mem_cons, List.not_mem_nil, or_false] at hs
    rcases hs with rfl | rfl | rfl
    · rfl
    · exact toKebab_toCamel_eq_iff.mpr h
    · exact toKebab_toKebab name
  constructor
  · rintro (hother | hother)
    · exact hspellings other hother
    · rw [← toKebab_toKebab other]
      exact hspellings (toKebab other) hother
  · intro hother
    exact .inr (by simp [variants, hother])

/-- **Canonical forms.** Both forms are final. The camel form of a name has its kebab form if every
hyphen in front of a small letter stands directly behind a letter or digit, and only then. -/
theorem canonical_forms (name : String) :
    toCamel (toCamel name) = toCamel name ∧ toKebab (toKebab name) = toKebab name ∧
      (toKebab (toCamel name) = toKebab name ↔ HyphensJoin name) :=
  ⟨toCamel_toCamel name, toKebab_toKebab name, toKebab_toCamel_eq_iff⟩

example : HyphensJoin "aΣ--Bc-d" ∧ toKebab "aΣ--Bc-d" = "aς--bc-d" ∧
    ¬ HyphensJoin "Σ-a" ∧ toKebab "Σ-a" = "σ-a" ∧ toKebab (toCamel "Σ-a") = "σa" := by
  decide +kernel

end ComponentAttrs.Attribute
