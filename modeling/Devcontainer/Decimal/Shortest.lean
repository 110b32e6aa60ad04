import Devcontainer.Decimal.Binary64

/-!
# The shortest decimal of a double

Of all decimals that read back as a double, the one with the fewest digits; among those the
nearest one, and of two equally near ones the one with the even last digit.
-/

namespace Devcontainer

/-- `digits · 10 ^ power`. -/
structure Decimal where
  digits : Nat
  power : Int
deriving DecidableEq, Repr, Inhabited

namespace Binary64

def leadingPower (num den : Nat) : Int :=
  if den ≤ num then ((Nat.toDigits 10 (num / den)).length : Int) - 1
  else -((Nat.toDigits 10 ((den - 1) / num)).length : Int)

def readsBackAs (x : Binary64) (d : Decimal) : Bool :=
  ofDecimal? x.negative d.digits d.power == some x

/-- The decimal with the given last place that stands for `x`, if there is one: the neighbour below
or above on that grid, when it reads back. -/
def onGrid? (x : Binary64) (power : Int) : Option Decimal :=
  let (num, den) := x.ratio
  let (num, den) := if 0 ≤ power then (num, den * Nat.pow 10 power.toNat)
    else (num * Nat.pow 10 (-power).toNat, den)
  let below : Decimal := ⟨num / den, power⟩
  let above : Decimal := ⟨num / den + 1, power⟩
  let rest := num % den
  match x.readsBackAs below, x.readsBackAs above with
  | true, false => some below
  | false, true => some above
  | false, false => none
  | true, true =>
    some (if 2 * rest < den ∨ (2 * rest = den ∧ below.digits % 2 = 0) then below else above)

def dropZeros : Nat → Decimal → Decimal
  | 0, d => d
  | fuel + 1, d => if d.digits ≠ 0 ∧ d.digits % 10 = 0
      then dropZeros fuel ⟨d.digits / 10, d.power + 1⟩ else d

/-- Seventeen digits always suffice, and more than that are tried only so that the search needs no
proof of it. -/
def shortest (x : Binary64) : Decimal :=
  if x.mantissa = 0 then ⟨0, 0⟩
  else
    let (num, den) := x.ratio
    let lead := leadingPower num den
    let found := (List.range 800).findSome? fun (places : Nat) => x.onGrid? (lead - places)
    let d := found.getD ⟨num, 0⟩
    dropZeros (Nat.toDigits 10 d.digits).length d

/-- Which powers of ten of the leading digit are written without an exponent. -/
structure DecimalLayout where
  plain : Int → Bool

namespace DecimalLayout

private def zeros (n : Nat) : List Char := List.replicate n '0'

/-- Digits with the point set so that the first one has the given power of ten; at least one digit
stands on either side of the point. -/
def positional (digits : List Char) (lead : Int) : List Char :=
  if lead < 0 then
    '0' :: '.' :: (zeros (-lead - 1).toNat ++ digits)
  else
    let whole := lead.toNat + 1
    let before := digits.take whole
    let after := digits.drop whole
    before ++ zeros (whole - digits.length) ++ '.' :: (if after.isEmpty then ['0'] else after)

def scientific (digits : List Char) (lead : Int) : List Char :=
  let fraction := match digits.drop 1 with
    | [] => []
    | rest => '.' :: rest
  digits.take 1 ++ fraction ++ 'e' :: (if lead < 0 then '-' else '+')
    :: Nat.toDigits 10 lead.natAbs

def write (layout : DecimalLayout) (x : Binary64) : List Char :=
  let d := x.shortest
  let digits := Nat.toDigits 10 d.digits
  let lead := d.power + digits.length - 1
  let sign := if x.negative then ['-'] else []
  sign ++ if layout.plain lead then positional digits lead else scientific digits lead

end DecimalLayout

end Binary64

end Devcontainer
