import Devcontainer.Decimal.Binary64
import Devcontainer.Json.Basic
import Devcontainer.Text.Basic

/-!
# Numbers in a document

Without point and exponent a number is whole and must fit 64 bits with a sign. Hexadecimal numbers
take no sign and must fit 32 bits. Infinity and NaN are no JSON numbers and read as null.
-/

namespace Devcontainer.Document

open Text

structure Numeral where
  whole : List Char
  fraction : Option (List Char)
  exponent : Option Int
  width : Nat

/-- The digits before the point: a leading zero stands alone. -/
def wholeDigits : List Char → List Char
  | '0' :: _ => ['0']
  | text => text.takeWhile isDigit

/-- An exponent and its width; without digits there is none. -/
def exponentAt : List Char → Option (Int × Nat)
  | e :: text =>
    if e = 'e' ∨ e = 'E' then
      let (sign, rest) := match text with
        | '-' :: rest => (some true, rest)
        | '+' :: rest => (some false, rest)
        | rest => (none, rest)
      let digits := rest.takeWhile isDigit
      if digits.isEmpty then none
      else
        let n : Int := digitsValue digits
        some (if sign = some true then -n else n, 1 + (if sign.isSome then 1 else 0) + digits.length)
    else none
  | [] => none

def numeralAt (text : List Char) : Option Numeral :=
  let whole := wholeDigits text
  let rest := text.drop whole.length
  let fraction := match rest with
    | '.' :: rest => some (rest.takeWhile isDigit)
    | _ => none
  if whole.isEmpty && (fraction.getD []).isEmpty then none
  else
    let width := whole.length + (match fraction with | some f => 1 + f.length | none => 0)
    match exponentAt (text.drop width) with
    | some (e, w) => some ⟨whole, fraction, some e, width + w⟩
    | none => some ⟨whole, fraction, none, width⟩

def Numeral.value? (negative : Bool) (n : Numeral) : Option Json :=
  match n.fraction, n.exponent with
  | none, none =>
    let k : Int := digitsValue n.whole
    let k := if negative then -k else k
    if -0x8000000000000000 ≤ k ∧ k < 0x8000000000000000 then some (.number (.int k)) else none
  | fraction, exponent =>
    let fraction := fraction.getD []
    (Binary64.ofDecimal? negative (digitsValue (n.whole ++ fraction))
      (exponent.getD 0 - fraction.length)).map fun x => .number (.float x)

def hexDigitsAt : List Char → Option (List Char)
  | '0' :: x :: rest =>
    let digits := rest.takeWhile fun c => (hexDigitValue? c).isSome
    if (x = 'x' ∨ x = 'X') ∧ digits ≠ [] then some digits else none
  | _ => none

/-- The word at the head of the text that stands for a number that is not finite. -/
def notFiniteAt (text : List Char) : Option (List Char) :=
  ["Infinity".toList, "NaN".toList].find? (·.isPrefixOf text)

def numberAt (text : List Char) : Option (Json × Nat) :=
  let (sign, rest) := match text with
    | '-' :: rest => (some true, rest)
    | '+' :: rest => (some false, rest)
    | rest => (none, rest)
  let signWidth := if sign.isSome then 1 else 0
  match hexDigitsAt rest with
  | some digits =>
    if sign.isSome then none
    else ((hexValue? digits).filter (· < UInt32.size)).map fun n =>
      (.number (.int n), 2 + digits.length)
  | none =>
    match notFiniteAt rest with
    | some word => if sign = some false then none else some (.null, signWidth + word.length)
    | none => do
      let n ← numeralAt rest
      let v ← n.value? (sign = some true)
      some (v, signWidth + n.width)

end Devcontainer.Document
