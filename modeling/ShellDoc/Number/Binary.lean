/-!
# Binary numbers of 53 bits

The nonnegative numbers `bits * 2 ^ exponent` with at most 53 bits and an exponent from -1074 to
971.

* `Binary.nearest?`: the one nearest to a quotient; of two equally near the one with even bits.
-/

namespace ShellDoc

/-- The number `bits * 2 ^ exponent`. -/
structure Binary where
  bits : Nat
  exponent : Int
deriving DecidableEq, Repr

namespace Binary

/-- The least exponent. -/
def minExponent : Int := -1074

/-- The greatest exponent. -/
def maxExponent : Int := 971

/-- The whole number nearest to `num / den`, of two equally near the even one. -/
def roundQuotient (num den : Nat) : Nat :=
  let q := num / den
  let twice := 2 * (num % den)
  if twice < den then q
  else if den < twice then q + 1
  else if q % 2 = 0 then q else q + 1

/-- Numerator and denominator of `num / (den * 2 ^ e)`. -/
def scale (num den : Nat) (e : Int) : Nat × Nat :=
  if e < 0 then (num * Nat.pow 2 (-e).toNat, den) else (num, den * Nat.pow 2 e.toNat)

/-- An exponent with which the bits of `num / den` are at most 53, and 53 if that can be. -/
def exponentFor (num den : Nat) : Int :=
  let guess : Int := num.log2 - den.log2 - 53
  let (n, d) := scale num den guess
  max minExponent (if Nat.pow 2 53 ≤ n / d then guess + 1 else guess)

/-- The number nearest to `num / den`, unless that is too large. -/
def nearest? (num den : Nat) : Option Binary :=
  if num = 0 then some ⟨0, minExponent⟩
  else
    let e := exponentFor num den
    let (n, d) := scale num den e
    let bits := roundQuotient n d
    let result : Binary := if bits = Nat.pow 2 53 then ⟨Nat.pow 2 52, e + 1⟩ else ⟨bits, e⟩
    if maxExponent < result.exponent then none else some result

end Binary

end ShellDoc
