import Mathlib.Computability.Language
import ComponentAttrs.Attribute.Spelling

/-!
Well-formed names in either spelling, as regular languages: `my-prop` and `item-2` in kebab case,
`myProp` and `item-2` in camel case. Behind the first character both are rows of plain characters and
of hyphens in front of certain characters, which `isRow` reads from left to right.

* `mem_kebabNames_iff`, `mem_camelNames_iff`: membership by reading.
-/
namespace ComponentAttrs.Attribute

open Computability

def isSmallOrDigit (c : Char) : Bool := isSmallLetter c || c.isDigit

/-- Texts of one character of a class. -/
def oneOf (p : Char → Bool) : Language Char := {cs | ∃ c, p c ∧ cs = [c]}

def hyphen : Language Char := oneOf (· = '-')

/-- `[a-z0-9]+` -/
def smallWords : Language Char := oneOf isSmallOrDigit * (oneOf isSmallOrDigit)∗

/-- `[a-z0-9]+(-[a-z0-9]+)*` -/
def kebabNames : Language Char := smallWords * (hyphen * smallWords)∗

/-- `[a-z0-9]([A-Za-z0-9]|-[0-9])*` -/
def camelNames : Language Char :=
  oneOf isSmallOrDigit * (oneOf Char.isAlphanum + hyphen * oneOf Char.isDigit)∗

/-! ## Rows -/

/-- Plain characters, and hyphens in front of certain characters. -/
def isRow (plain behind : Char → Bool) : List Char → Bool
  | [] => true
  | '-' :: c :: cs => behind c && isRow plain behind cs
  | c :: cs => plain c && isRow plain behind cs

/-- A character of a class, then a row. -/
def isHeaded (first plain behind : Char → Bool) : List Char → Bool
  | [] => false
  | c :: cs => first c && isRow plain behind cs

def rowUnits (plain behind : Char → Bool) : Language Char := oneOf plain + hyphen * oneOf behind

theorem mem_oneOf_mul_iff {p : Char → Bool} {l : Language Char} {cs : List Char} :
    cs ∈ oneOf p * l ↔ ∃ c rest, cs = c :: rest ∧ p c ∧ rest ∈ l := by
  rw [Language.mem_mul]
  constructor
  · rintro ⟨_, ⟨c, hc, rfl⟩, rest, hrest, rfl⟩
    exact ⟨c, rest, rfl, hc, hrest⟩
  · rintro ⟨c, rest, rfl, hc, hrest⟩
    exact ⟨[c], ⟨c, hc, rfl⟩, rest, hrest, rfl⟩

theorem nil_not_mem_rowUnits (plain behind : Char → Bool) : [] ∉ rowUnits plain behind := by
  rw [rowUnits, hyphen, Language.mem_add, mem_oneOf_mul_iff]
  rintro (⟨c, _, h⟩ | ⟨c, rest, h, _⟩)
  · cases h
  · cases h

/-- A row is empty, or one unit and a row. -/
theorem rows_eq {plain behind : Char → Bool} (h : ¬ plain '-') (rows : Language Char)
    (hrows : ∀ cs, cs ∈ rows ↔ isRow plain behind cs) :
    rows = rowUnits plain behind * rows + 1 := by
  apply Language.ext
  intro cs
  rw [rowUnits, add_mul, mul_assoc, hyphen, Language.mem_add, Language.mem_add, Language.mem_one,
    mem_oneOf_mul_iff, mem_oneOf_mul_iff, hrows]
  simp only [mem_oneOf_mul_iff, hrows]
  constructor
  · intro hcs
    fun_cases isRow plain behind cs with
    | case1 => exact .inr rfl
    | case2 c cs =>
      rw [isRow, Bool.and_eq_true] at hcs
      exact .inl (.inr ⟨'-', c :: cs, rfl, rfl, c, cs, rfl, hcs⟩)
    | case3 c cs hc =>
      rw [isRow, Bool.and_eq_true] at hcs
      · exact .inl (.inl ⟨c, cs, rfl, hcs⟩)
      · exact hc
  · rintro ((⟨c, cs, rfl, hc, hrow⟩ | ⟨c, _, rfl, hc, d, cs, rfl, hd, hrow⟩) | rfl)
    · have hne : c ≠ '-' := by
        rintro rfl
        exact h hc
      rw [isRow, hc, hrow, Bool.and_self]
      rintro _ _ rfl
      exact absurd rfl hne
    · obtain rfl := of_decide_eq_true hc
      rw [isRow, hd, hrow, Bool.and_self]
    · rfl

theorem isRow_iff {plain behind : Char → Bool} (h : ¬ plain '-') {cs : List Char} :
    cs ∈ (rowUnits plain behind)∗ ↔ isRow plain behind cs := by
  have hrows := rows_eq h {cs | isRow plain behind cs} fun _ => Iff.rfl
  have hstar := (Language.self_eq_mul_add_iff (nil_not_mem_rowUnits plain behind)).mp hrows
  rw [← mul_one (rowUnits plain behind)∗, ← hstar]
  rfl

/-- Words joined by something are one row of characters and of joints with a character behind. -/
theorem kstar_mul_kstar {α : Type} {a b : Language α} (h : [] ∉ a + b * a) :
    a∗ * (b * (a * a∗))∗ = (a + b * a)∗ := by
  -- the left side solves the equation of which the right side is the only solution
  have hrow : a∗ * (b * (a * a∗))∗ = (a + b * a) * (a∗ * (b * (a * a∗))∗) + 1 := by
    calc a∗ * (b * (a * a∗))∗
        = (1 + a * a∗) * (b * (a * a∗))∗ := by rw [Language.one_add_self_mul_kstar_eq_kstar]
      _ = (b * (a * a∗))∗ + a * (a∗ * (b * (a * a∗))∗) := by rw [add_mul, one_mul, mul_assoc]
      _ = 1 + b * (a * a∗) * (b * (a * a∗))∗ + a * (a∗ * (b * (a * a∗))∗) := by
        rw [Language.one_add_self_mul_kstar_eq_kstar (b * (a * a∗))]
      _ = (a + b * a) * (a∗ * (b * (a * a∗))∗) + 1 := by
        simp only [add_mul, mul_assoc]
        ac_rfl
  have hstar := (Language.self_eq_mul_add_iff h).mp hrow
  rwa [mul_one] at hstar

theorem mem_oneOf_mul_kstar_iff {first plain behind : Char → Bool} (h : ¬ plain '-')
    {cs : List Char} :
    cs ∈ oneOf first * (rowUnits plain behind)∗ ↔ isHeaded first plain behind cs := by
  rw [mem_oneOf_mul_iff]
  cases cs with
  | nil => simp [isHeaded]
  | cons c cs =>
    rw [isHeaded, Bool.and_eq_true, ← isRow_iff h]
    constructor
    · rintro ⟨_, _, heq, hc, hrow⟩
      cases heq
      exact ⟨hc, hrow⟩
    · rintro ⟨hc, hrow⟩
      exact ⟨c, cs, rfl, hc, hrow⟩

theorem mem_kebabNames_iff {cs : List Char} :
    cs ∈ kebabNames ↔ isHeaded isSmallOrDigit isSmallOrDigit isSmallOrDigit cs := by
  have hkebab : kebabNames =
      oneOf isSmallOrDigit * (rowUnits isSmallOrDigit isSmallOrDigit)∗ := by
    have hrow := kstar_mul_kstar (nil_not_mem_rowUnits isSmallOrDigit isSmallOrDigit)
    rw [kebabNames, smallWords, mul_assoc, hrow, rowUnits]
  rw [hkebab]
  exact mem_oneOf_mul_kstar_iff (by decide)

theorem mem_camelNames_iff {cs : List Char} :
    cs ∈ camelNames ↔ isHeaded isSmallOrDigit Char.isAlphanum Char.isDigit cs :=
  mem_oneOf_mul_kstar_iff (by decide)

/-- Names that are well formed in one spelling or the other. -/
def wellFormedNames : Language Char := kebabNames + camelNames

theorem mem_wellFormedNames_iff {cs : List Char} :
    cs ∈ wellFormedNames ↔ isHeaded isSmallOrDigit isSmallOrDigit isSmallOrDigit cs ∨
      isHeaded isSmallOrDigit Char.isAlphanum Char.isDigit cs := by
  rw [wellFormedNames, Language.mem_add, mem_kebabNames_iff, mem_camelNames_iff]

instance (cs : List Char) : Decidable (cs ∈ wellFormedNames) :=
  decidable_of_iff _ mem_wellFormedNames_iff.symm

example : "my-prop".toList ∈ wellFormedNames ∧ "myProp-2".toList ∈ wellFormedNames ∧
    "MyProp".toList ∉ wellFormedNames ∧ "a--b".toList ∉ wellFormedNames := by decide

end ComponentAttrs.Attribute
