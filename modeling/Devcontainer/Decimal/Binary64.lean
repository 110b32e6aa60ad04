/-!
# Double precision numbers

A finite double is `±mantissa · 2 ^ exponent`. Everything here is exact arithmetic on natural
numbers: a quotient is rounded once, to the nearest double and at a tie to the even mantissa.
-/

namespace Devcontainer

/-- In normal form the mantissa is below `2 ^ 53` and the exponent at least `-1074`; the mantissa
has its full 53 bits unless the exponent is the least one. -/
structure Binary64 where
  negative : Bool
  mantissa : Nat
  exponent : Int
deriving DecidableEq, Repr, Inhabited

namespace Binary64

def leastExponent : Int := -1074

def greatestExponent : Int := 971

def mantissaBits : Nat := 53

def zero (negative : Bool) : Binary64 := ⟨negative, 0, leastExponent⟩

/-- The nearest whole number to `num / den`; a half goes to the even neighbour. -/
def roundDiv (num den : Nat) : Nat :=
  let q := num / den
  let r := num % den
  if den < 2 * r ∨ (den = 2 * r ∧ q % 2 = 1) then q + 1 else q

/-- `num / den / 2 ^ exponent`, rounded. -/
def scaledMantissa (num den : Nat) (exponent : Int) : Nat :=
  if 0 ≤ exponent then roundDiv num (den * Nat.pow 2 exponent.toNat)
  else roundDiv (num * Nat.pow 2 (-exponent).toNat) den

/-- The exponent at which `num / den` has a mantissa of 53 bits, or the least exponent. -/
def exponentOf (num den : Nat) : Int :=
  let guess : Int := (num.log2 : Int) - den.log2 - 52
  let full :=
    if 0 ≤ guess then num < Nat.pow 2 52 * (den * Nat.pow 2 guess.toNat)
    else num * Nat.pow 2 (-guess).toNat < Nat.pow 2 52 * den
  max leastExponent (if full then guess - 1 else guess)

def ofRatio? (negative : Bool) (num den : Nat) : Option Binary64 :=
  if num = 0 then some (zero negative)
  else
    let exponent := exponentOf num den
    let mantissa := scaledMantissa num den exponent
    let (mantissa, exponent) :=
      if mantissa = Nat.pow 2 mantissaBits then (Nat.pow 2 (mantissaBits - 1), exponent + 1)
      else (mantissa, exponent)
    if exponent ≤ greatestExponent then some ⟨negative, mantissa, exponent⟩ else none

/-- The double nearest to `significand · 10 ^ power`, when there is a finite one. Powers far out of
range are decided by their size alone. -/
def ofDecimal? (negative : Bool) (significand : Nat) (power : Int) : Option Binary64 :=
  let size : Int := (Nat.toDigits 10 significand).length + power
  if significand = 0 ∨ size < -330 then some (zero negative)
  else if 330 < size then none
  else if 0 ≤ power then ofRatio? negative (significand * Nat.pow 10 power.toNat) 1
  else ofRatio? negative significand (Nat.pow 10 (-power).toNat)

def ofInt? (n : Int) : Option Binary64 :=
  ofRatio? (n < 0) n.natAbs 1

def ratio (x : Binary64) : Nat × Nat :=
  if 0 ≤ x.exponent then (x.mantissa * Nat.pow 2 x.exponent.toNat, 1)
  else (x.mantissa, Nat.pow 2 (-x.exponent).toNat)

def toInt? (x : Binary64) : Option Int :=
  let (num, den) := x.ratio
  if num % den = 0 then
    some (if x.negative then -((num / den : Nat) : Int) else (num / den : Nat))
  else none

end Binary64

end Devcontainer
