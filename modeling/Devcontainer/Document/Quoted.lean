import Devcontainer.Text.Basic
import Devcontainer.Text.Letter

/-!
# Quoted texts and names in a document

Both are read as a run of characters and of UTF-16 units, the units being those written as `\u`
escapes. Units are then paired to characters.
-/

namespace Devcontainer.Document

open Text

def isLineEnd (c : Char) : Bool :=
  c == '\n' || c == '\r' || c.toNat == 0x2028 || c.toNat == 0x2029

inductive Piece where
  | char (c : Char)
  | unit (code : Nat)
deriving DecidableEq, Repr

def hexAt (count : Nat) (text : List Char) : Option Nat :=
  if count ≤ text.length then hexValue? (text.take count) else none

/-- What a character stands for after a backslash, unless it starts a longer escape. -/
def escaped (c : Char) : Char :=
  match c with
  | 'b' => '\x08'
  | 'f' => '\x0c'
  | 'n' => '\n'
  | 'r' => '\r'
  | 't' => '\t'
  | 'v' => '\x0b'
  | '0' => '\x00'
  | c => c

/-- The pieces and the width of what follows a backslash. A line end continues the text on the next
line and leaves nothing behind. -/
def escapeAt : List Char → Option (List Piece × Nat)
  | [] => none
  | 'u' :: rest => (hexAt 4 rest).map fun code => ([.unit code], 5)
  | 'x' :: rest => (hexAt 2 rest).map fun code => ([.char (Char.ofNat code)], 3)
  | '\r' :: '\n' :: _ => some ([], 2)
  | c :: _ =>
    if isLineEnd c then some ([], 1)
    else if isDigit c && c != '0' then none
    else some ([.char (escaped c)], 1)

def quotedHead : List Char → Option (List Piece × Nat)
  | [] => none
  | '\\' :: rest => (escapeAt rest).map fun (pieces, width) => (pieces, width + 1)
  | c :: _ => if isLineEnd c then none else some ([.char c], 1)

/-- The pieces before the closing quote, and the width of the text with that quote. -/
def quotedFrom (quote : Char) : (skip : Nat) → List Char → Option (List Piece × Nat)
  | _, [] => none
  | skip + 1, _ :: rest =>
    (quotedFrom quote skip rest).map fun (pieces, width) => (pieces, width + 1)
  | 0, c :: rest =>
    if c = quote then some ([], 1)
    else
      match quotedHead (c :: rest) with
      | none => none
      | some (head, width) =>
        (quotedFrom quote (width - 1) rest).map fun (pieces, n) => (head ++ pieces, n + 1)

def nameHead (start : Bool) : List Char → Option (Piece × Nat)
  | [] => none
  | '\\' :: 'u' :: rest => (hexAt 4 rest).map fun code => (.unit code, 6)
  | c :: _ =>
    if isLetter c || c == '$' || c == '_' then some (.char c, 1)
    else if !start && (isNameMark c || c.toNat == 0x200C || c.toNat == 0x200D) then
      some (.char c, 1)
    else none

def nameFrom (start : Bool) : (skip : Nat) → List Char → List Piece × Nat
  | _, [] => ([], 0)
  | skip + 1, _ :: rest =>
    match nameFrom false skip rest with
    | (pieces, width) => (pieces, width + 1)
  | 0, c :: rest =>
    match nameHead start (c :: rest) with
    | none => ([], 0)
    | some (head, width) =>
      match nameFrom false (width - 1) rest with
      | (pieces, n) => (head :: pieces, n + 1)

def isHighUnit (code : Nat) : Bool := 0xD800 ≤ code && code < 0xDC00

def isLowUnit (code : Nat) : Bool := 0xDC00 ≤ code && code < 0xE000

/-- The character of a pair of units. The halves are joined bit by bit, without a carry out of the
lower one. -/
def pairUnits (high low : Nat) : Char :=
  Char.ofNat (((high - 0xD800) <<< 10) ||| ((low - 0xDC00) + 0x10000))

/-- Pairs the units; one that has no partner is refused. -/
def joinPieces : List Piece → Option (List Char)
  | [] => some []
  | .char c :: pieces => (joinPieces pieces).map (c :: ·)
  | .unit code :: pieces =>
    if isLowUnit code then none
    else if isHighUnit code then
      match pieces with
      | .unit low :: rest =>
        if isLowUnit low then (joinPieces rest).map (pairUnits code low :: ·) else none
      | _ => none
    else (joinPieces pieces).map (Char.ofNat code :: ·)

end Devcontainer.Document
