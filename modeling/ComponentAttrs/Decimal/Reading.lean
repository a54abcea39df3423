import ComponentAttrs.Decimal.Nearest
import ComponentAttrs.Text.Numerals

/-!
Numbers as they are read from a text of their own: with blanks around them, a sign, and digits of
any script.
-/
namespace ComponentAttrs.Decimal

/-- Whole numbers of more decimal digits than these are neither read nor written. -/
def digitLimit : Nat := 4300

/-- The plain spelling of a number: digits of all scripts become the ten usual ones, and blanks of
all scripts spaces. What is neither becomes a question mark, which no number holds. -/
def plainSpelling (cs : List Char) : List Char :=
  cs.map fun c =>
    if c.toNat < 0x80 then c
    else if Text.isWideBlank c then ' '
    else
      match Text.numeral? c with
      | some n => Char.ofNat ('0'.toNat + n)
      | none => '?'

def isBlank (c : Char) : Bool :=
  c = ' ' || c = '\t' || c = '\n' || c = '\x0B' || c = '\x0C' || c = '\r'

def trim (cs : List Char) : List Char :=
  ((cs.dropWhile isBlank).reverse.dropWhile isBlank).reverse

def skipSign : List Char → List Char
  | '-' :: cs => cs
  | '+' :: cs => cs
  | cs => cs

def isNegative (cs : List Char) : Bool := cs.head? = some '-'

/-! ## Whole numbers -/

def digitOf? (c : Char) : Option Nat :=
  if c.isDigit then some (c.toNat - '0'.toNat)
  else if 'a' ≤ c && c ≤ 'z' then some (c.toNat - 'a'.toNat + 10)
  else if 'A' ≤ c && c ≤ 'Z' then some (c.toNat - 'A'.toNat + 10)
  else none

/-- Digits to a base; there must be some. -/
def natOf? (base : Nat) (cs : List Char) : Option Nat :=
  if cs.isEmpty then none
  else cs.foldlM (fun acc c => (digitOf? c).bind fun d =>
    if d < base then some (acc * base + d) else none) 0

/-- The letter that may stand behind a zero in front of digits to this base. -/
def baseLetter? (base : Nat) : Option Char := [(2, 'b'), (8, 'o'), (16, 'x')].lookup base

def skipBase (base : Nat) : List Char → List Char
  | '0' :: c :: cs => if baseLetter? base = some c.toLower then cs else '0' :: c :: cs
  | cs => cs

/-- A whole number to a base. -/
def integer? (base : Nat) (cs : List Char) : Option Int :=
  let cs := trim (plainSpelling cs)
  let digits := skipBase base (skipSign cs)
  if base = 10 && digitLimit < digits.length then none
  else (natOf? base digits).map fun n => if isNegative cs then -Int.ofNat n else Int.ofNat n

/-! ## Floats -/

def infinity : Float := 1.0 / 0.0

def notANumber : Float := 0.0 / 0.0

/-- The decimal number `digits`, a point in front of the last `places` of them, times a power of
ten. Beyond four hundred places from the point there is only zero or infinity. -/
def decimalFloat (digits : List Char) (places : Nat) (power : Int) : Float :=
  let digits := digits.dropWhile (· = '0')
  let m := (natOf? 10 digits).getD 0
  let e := power - Int.ofNat places
  let size := e + Int.ofNat digits.length
  if m = 0 ∨ size < -400 then 0.0
  else if 400 < size then infinity
  else (nearest? (m * tenTo e.toNat) (tenTo (-e).toNat)).getD infinity

/-- Digits with an optional point and an optional power of ten. -/
def plainFloat? (cs : List Char) : Option Float :=
  let whole := cs.takeWhile Char.isDigit
  let rest := cs.dropWhile Char.isDigit
  let (fraction, rest) := match rest with
    | '.' :: rest => (rest.takeWhile Char.isDigit, rest.dropWhile Char.isDigit)
    | _ => ([], rest)
  if whole.isEmpty && fraction.isEmpty then none
  else
    match rest with
    | [] => some (decimalFloat (whole ++ fraction) fraction.length 0)
    | e :: power =>
      if e = 'e' || e = 'E' then
        (natOf? 10 (skipSign power)).map fun n =>
          decimalFloat (whole ++ fraction) fraction.length
            (if isNegative power then -Int.ofNat n else Int.ofNat n)
      else none

/-- A float, in digits or by name. -/
def float? (cs : List Char) : Option Float :=
  let cs := trim (plainSpelling cs)
  let magnitude := skipSign cs
  let name := String.ofList (magnitude.map Char.toLower)
  let value :=
    if name = "inf" || name = "infinity" then some infinity
    else if name = "nan" then some notANumber
    else plainFloat? magnitude
  if isNegative cs then value.map (-·) else value

/-- The float nearest to a whole number, if there is a finite one. -/
def ofNat? (n : Nat) : Option Float := nearest? n 1

end ComponentAttrs.Decimal
