import Devcontainer.Decimal.Shortest
import Devcontainer.Json.Basic

/-!
# Writing JSON

Two layouts of one text: compact, without any blank, and indented, one member or item a line. Only
quotes, backslashes and control characters are escaped in a string.
-/

namespace Devcontainer.Json

/-- Doubles have an exponent from `1e+16` on and below `1e-5`. -/
def numberLayout : Binary64.DecimalLayout where
  plain lead := -5 ≤ lead ∧ lead ≤ 15

def hexDigit (n : Nat) : Char :=
  Nat.digitChar (n % 16)

def escape (c : Char) : List Char :=
  match c with
  | '"' => ['\\', '"']
  | '\\' => ['\\', '\\']
  | '\x08' => ['\\', 'b']
  | '\x0c' => ['\\', 'f']
  | '\n' => ['\\', 'n']
  | '\r' => ['\\', 'r']
  | '\t' => ['\\', 't']
  | c =>
    if c.toNat < 0x20 then
      ['\\', 'u', '0', '0', hexDigit (c.toNat / 16), hexDigit c.toNat]
    else [c]

def quote (s : String) : List Char :=
  '"' :: (s.toList.flatMap escape ++ ['"'])

def writeNumber : Number → List Char
  | .int n => if n < 0 then '-' :: Nat.toDigits 10 n.natAbs else Nat.toDigits 10 n.natAbs
  | .float x => numberLayout.write x

def writeScalar : Json → List Char
  | .null => "null".toList
  | .bool true => "true".toList
  | .bool false => "false".toList
  | .number n => writeNumber n
  | .string s => quote s
  | .array _ => ['[', ']']
  | .object _ => ['\x7b', '\x7d']

mutual

def writeCompact : Json → List Char
  | .array items => '[' :: writeItems items ++ [']']
  | .object members => '\x7b' :: writeMembers members ++ ['\x7d']
  | v => writeScalar v

def writeItems : List Json → List Char
  | [] => []
  | [item] => writeCompact item
  | item :: items => writeCompact item ++ ',' :: writeItems items

def writeMembers : List (String × Json) → List Char
  | [] => []
  | [(key, value)] => quote key ++ ':' :: writeCompact value
  | (key, value) :: members =>
    quote key ++ ':' :: writeCompact value ++ ',' :: writeMembers members

end

def compact (v : Json) : String :=
  String.ofList v.writeCompact

def newLine (depth : Nat) : List Char :=
  '\n' :: List.replicate (2 * depth) ' '

mutual

/-- A value whose first line has been indented; an empty array or object stays on its line. -/
def writeIndented (depth : Nat) : Json → List Char
  | .array [] => ['[', ']']
  | .array items =>
    '[' :: writeItemLines (depth + 1) items ++ newLine depth ++ [']']
  | .object [] => ['\x7b', '\x7d']
  | .object members =>
    '\x7b' :: writeMemberLines (depth + 1) members ++ newLine depth ++ ['\x7d']
  | v => writeScalar v

def writeItemLines (depth : Nat) : List Json → List Char
  | [] => []
  | [item] => newLine depth ++ writeIndented depth item
  | item :: items => newLine depth ++ writeIndented depth item ++ ',' :: writeItemLines depth items

def writeMemberLines (depth : Nat) : List (String × Json) → List Char
  | [] => []
  | [(key, value)] => newLine depth ++ quote key ++ ':' :: ' ' :: writeIndented depth value
  | (key, value) :: members =>
    newLine depth ++ quote key ++ ':' :: ' ' :: writeIndented depth value
      ++ ',' :: writeMemberLines depth members

end

def indented (v : Json) : String :=
  String.ofList (v.writeIndented 0)

end Devcontainer.Json
