import ComponentAttrs.Decimal.Shortest

/-!
The double nearest to a fraction. Doubles of one size are the multiples of a power of two, so that
the nearest one is a quotient rounded to a whole number; halfway the even number is taken.
-/
namespace ComponentAttrs.Decimal

/-- The whole number nearest to `n / d`. -/
def roundedQuotient (n d : Nat) : Nat :=
  let q := n / d
  let r := n % d
  if 2 * r < d then q else if d < 2 * r then q + 1 else q + q % 2

theorem roundedQuotient_near (n d : Nat) (h : 0 < d) :
    2 * n ≤ 2 * (roundedQuotient n d * d) + d ∧ 2 * (roundedQuotient n d * d) ≤ 2 * n + d := by
  have parts : n = n / d * d + n % d := by
    rw [Nat.mul_comm]
    exact (Nat.div_add_mod n d).symm
  have below : n % d < d := Nat.mod_lt n h
  have above : (n / d + 1) * d = n / d * d + d := by rw [Nat.add_mul, Nat.one_mul]
  unfold roundedQuotient
  simp only
  split
  · omega
  · split
    · omega
    · rcases Nat.mod_two_eq_zero_or_one (n / d) with even | odd
      · rw [even, Nat.add_zero]
        omega
      · rw [odd]
        omega

/-- The power of two of the first binary digit of `n / d`. -/
def binaryLeading (n d : Nat) : Int :=
  let guess : Int := Int.ofNat n.log2 - Int.ofNat d.log2
  if d * twoTo guess.toNat ≤ n * twoTo (-guess).toNat then guess else guess - 1

/-- Doubles hold 53 binary digits and no power of two below -1074. The bits of doubles next to each
other are numbers next to each other, so that a quotient rounded up into the next size needs no
care; `none` if it is larger than every finite double. -/
def nearest? (n d : Nat) : Option Float :=
  if n = 0 then some 0.0
  else
    let place := max (binaryLeading n d - 52) (-1074)
    let quotient := roundedQuotient (n * twoTo (-place).toNat) (d * twoTo place.toNat)
    let bits := (place + 1074).toNat * twoTo 52 + quotient
    if bits < 2047 * twoTo 52 then some (Float.ofBits bits.toUInt64) else none

end ComponentAttrs.Decimal
