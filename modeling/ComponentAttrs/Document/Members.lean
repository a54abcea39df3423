import ComponentAttrs.Document.Value

/-!
The order in which the members of a set come out. A set keeps numbers in numbered places, how many
of them is a power of two; the remainder of a member names its place, and where that is taken the
search goes on from there. Numbers that are equal have one remainder, whatever kind they are of.
-/
namespace ComponentAttrs.Document

/-- A set has eight places, or more than twice as many as members. -/
def placeCount (members : Nat) : Nat :=
  if members < 5 then 8 else Decimal.twoTo (Nat.log2 (2 * members) + 1)

/-- Two to this power is one more than the modulus. -/
def modulusBits : Nat := 61

/-- Numbers are counted modulo this prime. -/
def memberModulus : Nat := Decimal.twoTo modulusBits - 1

/-- A power of two modulo the prime; the powers come back after as many steps as it has bits. -/
def twoToModulo (e : Int) : Nat := Decimal.twoTo (e % modulusBits).toNat

/-- What is left of an infinite number. -/
def infiniteRemainder : Nat := 314159

/-- The number that places a member, in 64 bits, from its sign and remainder; minus one counts as
minus two. -/
def placing (negative : Bool) (remainder : Nat) : Nat :=
  if !negative || remainder = 0 then remainder
  else Decimal.twoTo 64 - (if remainder = 1 then 2 else remainder)

def intPlacing (i : Int) : Nat := placing (i < 0) (i.natAbs % memberModulus)

/-- What is no number by name has no place of its own. -/
def floatPlacing? (x : Float) : Option Nat :=
  if x.isNaN then none
  else if x.isInf then some (placing (x < 0) infiniteRemainder)
  else
    let b := Decimal.Binary.ofFloat x
    some (placing (x < 0) (b.mantissa * twoToModulo b.exponent % memberModulus))

def placing? : Value → Option Nat
  | .bool b => some (intPlacing (boolInt b))
  | .int i => some (intPlacing i)
  | .float x => floatPlacing? x
  | _ => none

abbrev Places := Array (Option Value)

def Places.isFree (places : Places) (n : Nat) : Bool := (places.getD n none).isNone

/-- From a start the nine places behind it are tried too, if there are as many; each further start
mixes in more of the number. -/
def findPlace (places : Places) (start rest : Nat) : Nat → Nat
  | 0 => start
  | fuel + 1 =>
    let reach := if start + 9 < places.size then 10 else 1
    match (List.range reach).find? fun n => places.isFree (start + n) with
    | some n => start + n
    | none =>
      let rest := rest / 32
      findPlace places ((start * 5 + 1 + rest) % places.size) rest fuel

def putMember (places : Places) (member : Value × Nat) : Places :=
  let (v, n) := member
  places.setIfInBounds (findPlace places (n % places.size) n (64 + places.size)) (some v)

/-- Sets of numbers are put in order; others stay as they are written. -/
def arrangeMembers (members : List Value) : List Value :=
  match members.mapM fun v => (placing? v).map fun n => (v, n) with
  | some placed =>
    (placed.foldl putMember (Array.replicate (placeCount members.length) none)).toList.filterMap id
  | none => members

end ComponentAttrs.Document
