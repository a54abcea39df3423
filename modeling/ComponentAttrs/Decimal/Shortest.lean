/-!
The shortest decimal of a binary number. A finite double is `m * 2 ^ q`; the decimals that read back
as it fill an interval around it, with its ends when `m` is even. Of all decimals in the interval
the ones with the fewest digits are found, and of those the nearest to the number.
-/
namespace ComponentAttrs.Decimal

/-- A positive number `mantissa * 2 ^ exponent`; `atPower` tells that the next smaller double is
only half as far away as the next larger one. -/
structure Binary where
  mantissa : Nat
  exponent : Int
  atPower : Bool

/-- `digits * 10 ^ exponent`. -/
structure Scaled where
  digits : Nat
  exponent : Int
deriving DecidableEq

def twoTo (n : Nat) : Nat := Nat.pow 2 n

def tenTo (n : Nat) : Nat := Nat.pow 10 n

/-- `a * 2 ^ e` compared with `d * 10 ^ p`, in natural numbers: both sides times the powers that are
missing. -/
def binaryLe (a : Nat) (e : Int) (d : Nat) (p : Int) : Bool :=
  a * twoTo e.toNat * tenTo (-p).toNat ≤ d * tenTo p.toNat * twoTo (-e).toNat

def decimalLe (d : Nat) (p : Int) (a : Nat) (e : Int) : Bool :=
  d * tenTo p.toNat * twoTo (-e).toNat ≤ a * twoTo e.toNat * tenTo (-p).toNat

namespace Binary

/-- Four times the number and its two interval ends, over `2 ^ (exponent - 2)`. -/
def quarter (b : Binary) : Nat := 4 * b.mantissa

def lower (b : Binary) : Nat := if b.atPower then 4 * b.mantissa - 1 else 4 * b.mantissa - 2

def upper (b : Binary) : Nat := 4 * b.mantissa + 2

/-- Does `d * 10 ^ p` read back as `b`? -/
def holds (b : Binary) (d : Nat) (p : Int) : Bool :=
  let e := b.exponent - 2
  if b.mantissa % 2 = 0 then binaryLe b.lower e d p && decimalLe d p b.upper e
  else !decimalLe d p b.lower e && !binaryLe b.upper e d p

/-- The multiple of `10 ^ p` just below `b`, or equal to it. -/
def floorAt (b : Binary) (p : Int) : Nat :=
  let e := b.exponent - 2
  (b.quarter * twoTo e.toNat * tenTo (-p).toNat) / (tenTo p.toNat * twoTo (-e).toNat)

/-- The power of ten of the first digit: 0.30103 is the logarithm of two, so the guess is off by at
most one. -/
def leading (b : Binary) : Int :=
  let guess := ((Nat.log2 b.mantissa + b.exponent) * 30103).fdiv 100000
  if decimalLe 1 (guess + 1) b.quarter (b.exponent - 2) then guess + 1
  else if decimalLe 1 guess b.quarter (b.exponent - 2) then guess
  else guess - 1

/-- Of the neighbours `d` and `d + 1` on the grid `10 ^ p`, is `d` the nearer one? Halfway the even
one is taken. -/
def nearerBelow (b : Binary) (d : Nat) (p : Int) : Bool :=
  binaryLe (2 * b.quarter) (b.exponent - 2) (2 * d + 1) p
    && (d % 2 = 0 || !decimalLe (2 * d + 1) p (2 * b.quarter) (b.exponent - 2))

/-- The decimal on the grid `10 ^ p` that reads back as `b`, the nearer one if both
neighbours do. -/
def onGrid? (b : Binary) (p : Int) : Option Nat :=
  let d := b.floorAt p
  match b.holds d p, b.holds (d + 1) p with
  | true, true => some (if b.nearerBelow d p then d else d + 1)
  | true, false => some d
  | false, true => some (d + 1)
  | false, false => none

/-- Seventeen digits always read back. -/
def shortest (b : Binary) : Scaled :=
  let first := b.leading
  let grid := (List.range 17).findSome? fun (n : Nat) =>
    (b.onGrid? (first - n)).map fun d => Scaled.mk d (first - n)
  grid.getD ⟨b.floorAt (first - 16), first - 16⟩

end Binary

/-- Trailing zeros moved into the exponent; `fuel` bounds their number. -/
def Scaled.trim (s : Scaled) : Nat → Scaled
  | 0 => s
  | fuel + 1 =>
    if s.digits ≠ 0 ∧ s.digits % 10 = 0 then Scaled.trim ⟨s.digits / 10, s.exponent + 1⟩ fuel else s

/-- The magnitude of a finite double other than zero. -/
def Binary.ofFloat (x : Float) : Binary :=
  let bits := x.toBits.toNat
  let fraction := bits % twoTo 52
  let biased := bits / twoTo 52 % twoTo 11
  if biased = 0 then ⟨fraction, -1074, false⟩
  else ⟨twoTo 52 + fraction, Int.ofNat biased - 1075, decide (fraction = 0 ∧ 1 < biased)⟩

end ComponentAttrs.Decimal
