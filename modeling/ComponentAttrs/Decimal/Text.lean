import ComponentAttrs.Decimal.Shortest

/-!
Floats as text: the shortest decimal that reads back, positional for middling sizes and with a power
of ten for very small and very large ones.
-/
namespace ComponentAttrs.Decimal

/-- Where positional notation ends, and how the rest is spelled. -/
structure FloatFormat where
  /-- Positional while the power of ten of the first digit is above this. -/
  smallest : Int
  /-- Positional while the power of ten of the first digit is below this. -/
  largest : Int
  /-- Least number of digits of a power of ten. -/
  exponentDigits : Nat
  infinity : String
  negativeInfinity : String
  notANumber : String

def pad (width : Nat) (digits : List Char) : List Char :=
  List.replicate (width - digits.length) '0' ++ digits

/-- Digits with the point after place `point`; a fraction is always written. -/
def positional (digits : List Char) (point : Int) : List Char :=
  if point ≤ 0 then '0' :: '.' :: List.replicate (-point).toNat '0' ++ digits
  else
    let whole := digits.take point.toNat
    let fraction := digits.drop point.toNat
    whole ++ List.replicate (point.toNat - whole.length) '0'
      ++ '.' :: (if fraction.isEmpty then ['0'] else fraction)

def scientific (format : FloatFormat) (digits : List Char) (power : Int) : List Char :=
  let mantissa := match digits with
    | [] => []
    | [d] => [d]
    | d :: rest => d :: '.' :: rest
  mantissa ++ 'e' :: (if power < 0 then '-' else '+')
    :: pad format.exponentDigits (Nat.toDigits 10 power.natAbs)

def floatText (format : FloatFormat) (x : Float) : String :=
  if x.isNaN then format.notANumber
  else if x.isInf then if x < 0 then format.negativeInfinity else format.infinity
  else
    let sign := if x.toBits.toNat / twoTo 63 = 1 then ['-'] else []
    if x == 0 then String.ofList (sign ++ ['0', '.', '0'])
    else
      let s := (Binary.ofFloat x).shortest.trim 20
      let digits := Nat.toDigits 10 s.digits
      let power := s.exponent + digits.length - 1
      String.ofList (sign ++
        if format.smallest < power ∧ power < format.largest then positional digits (power + 1)
        else scientific format digits power)

/-- Messages and documents write 0.0001 and 1000000000000000.0 in full, anything smaller or larger
with a power of ten of at least two digits. -/
def plainFloat : FloatFormat := ⟨-5, 16, 2, "inf", "-inf", "nan"⟩

end ComponentAttrs.Decimal
