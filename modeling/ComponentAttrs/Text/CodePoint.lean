/-!
Code points. A text may have to hold a code point that is no character: one half of a pair of units
that only together make one. Such a half is spelled with three characters, one that opens the group
and two digits. The characters that groups are made of are spelled in the same way, so that a text
spells one sequence of code points and no group is found where none was meant: `codesOf_flatMap`.
-/
namespace ComponentAttrs.Text

def isHalf (n : Nat) : Bool := 0xD800 ≤ n && n < 0xE000

def firstHalf : Nat := 0xD800

/-- The character that opens a group; the 64 behind it are the digits. No script uses them. -/
def opening : Nat := 0xEFF80

def isReserved (n : Nat) : Bool := opening ≤ n && n ≤ opening + 64

def digit (d : Nat) : Char := Char.ofNat (opening + 1 + d)

def digitValue (c : Char) : Nat := c.toNat - (opening + 1)

/-- Code points that are spelled as groups are numbered, the halves first. -/
def groupNumber (n : Nat) : Nat := if isHalf n then n - firstHalf else 0x800 + (n - opening)

def ofGroupNumber (i : Nat) : Nat := if i < 0x800 then firstHalf + i else opening + (i - 0x800)

/-- How a code point is spelled. -/
def ofCode (n : Nat) : List Char :=
  if isHalf n || isReserved n then
    [Char.ofNat opening, digit (groupNumber n / 64), digit (groupNumber n % 64)]
  else [Char.ofNat n]

/-- The code points that some characters spell. -/
def codesOf : List Char → List Nat
  | a :: b :: c :: rest =>
    if a.toNat = opening then ofGroupNumber (digitValue b * 64 + digitValue c) :: codesOf rest
    else a.toNat :: codesOf (b :: c :: rest)
  | a :: rest => a.toNat :: codesOf rest
  | [] => []

def codes (s : String) : List Nat := codesOf s.toList

def ofCodes (ns : List Nat) : String := String.ofList (ns.flatMap ofCode)

/-- The text that spells some characters as they were read. -/
def ofChars (cs : List Char) : String := ofCodes (cs.map Char.toNat)

/-- The characters of a text; none if it holds a half. -/
def chars? (s : String) : Option (List Char) :=
  (codes s).mapM fun n => if isHalf n then none else some (Char.ofNat n)

/-! ## Reading back -/

theorem isHalf_iff {n : Nat} : isHalf n = true ↔ 0xD800 ≤ n ∧ n < 0xE000 := by
  rw [isHalf, Bool.and_eq_true, decide_eq_true_iff, decide_eq_true_iff]

theorem isReserved_iff {n : Nat} : isReserved n = true ↔ opening ≤ n ∧ n ≤ opening + 64 := by
  rw [isReserved, Bool.and_eq_true, decide_eq_true_iff, decide_eq_true_iff]

theorem toNat_ofNat {n : Nat} (h : n < 0x110000) (whole : ¬ isHalf n = true) :
    (Char.ofNat n).toNat = n := by
  rw [isHalf_iff] at whole
  have valid : n.isValidChar := by
    unfold Nat.isValidChar
    omega
  rw [Char.ofNat, dif_pos valid]
  rfl

theorem digitValue_digit {d : Nat} (h : d < 64) : digitValue (digit d) = d := by
  unfold digitValue digit opening
  rw [toNat_ofNat (by omega) (by rw [isHalf_iff]; omega)]
  omega

theorem groupNumber_lt {n : Nat} (h : (isHalf n || isReserved n) = true) :
    groupNumber n < 4096 := by
  rw [Bool.or_eq_true, isHalf_iff, isReserved_iff] at h
  unfold groupNumber firstHalf
  split
  next half => rw [isHalf_iff] at half; omega
  next whole => rw [isHalf_iff] at whole; omega

theorem ofGroupNumber_groupNumber {n : Nat} (h : (isHalf n || isReserved n) = true) :
    ofGroupNumber (groupNumber n) = n := by
  rw [Bool.or_eq_true, isHalf_iff, isReserved_iff] at h
  unfold ofGroupNumber groupNumber firstHalf
  split
  next half => rw [isHalf_iff] at half; rw [if_pos (by omega)]; omega
  next whole => rw [isHalf_iff] at whole; rw [if_neg (by omega)]; omega

theorem codesOf_cons {a : Char} (h : a.toNat ≠ opening) (rest : List Char) :
    codesOf (a :: rest) = a.toNat :: codesOf rest := by
  match rest with
  | [] => rfl
  | [_] => rfl
  | _ :: _ :: _ => rw [codesOf, if_neg h]

theorem codesOf_ofCode {n : Nat} (h : n < 0x110000) (rest : List Char) :
    codesOf (ofCode n ++ rest) = n :: codesOf rest := by
  by_cases group : (isHalf n || isReserved n) = true
  · have bound := groupNumber_lt group
    rw [ofCode, if_pos group]
    change codesOf (Char.ofNat opening :: _ :: _ :: rest) = _
    rw [codesOf, if_pos (toNat_ofNat (by decide) (by decide)), digitValue_digit (by omega),
      digitValue_digit (by omega), Nat.div_add_mod' _ 64, ofGroupNumber_groupNumber group]
  · obtain ⟨whole, free⟩ : ¬ isHalf n = true ∧ ¬ isReserved n = true := by simpa using group
    have value := toNat_ofNat h whole
    have other : (Char.ofNat n).toNat ≠ opening := by
      rw [value]
      intro same
      exact free (same ▸ by decide)
    rw [ofCode, if_neg group, List.singleton_append, codesOf_cons other, value]

/-- A text spells the code points that it was made of. -/
theorem codesOf_flatMap {ns : List Nat} (h : ∀ n ∈ ns, n < 0x110000) :
    codesOf (ns.flatMap ofCode) = ns := by
  induction ns with
  | nil => rfl
  | cons n rest ih =>
    rw [List.flatMap_cons, codesOf_ofCode (h n (by simp)), ih fun m hm => h m (by simp [hm])]

end ComponentAttrs.Text
