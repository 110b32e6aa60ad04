import Devcontainer.Document.Numeral
import Devcontainer.Document.Quoted
import Devcontainer.Document.Token
import Devcontainer.Text.Basic

/-!
# Cutting a document into tokens

Blanks and comments separate tokens and mean nothing else. A line comment ends with its line or with
the document; a block comment must be closed and does not nest.
-/

namespace Devcontainer.Document

open Text

/-- Blanks between tokens: line ends, tabs and every space separator of Unicode, and the mark that
may stand at the start of a file. -/
def isSpace (c : Char) : Bool :=
  let n := c.toNat
  isLineEnd c || n == 0x09 || n == 0x0B || n == 0x0C || n == 0x20 || n == 0xA0 || n == 0xFEFF
    || n == 0x1680 || (0x2000 ≤ n && n ≤ 0x200A) || n == 0x202F || n == 0x205F || n == 0x3000

def blockWidth? : List Char → Option Nat
  | [] => none
  | '*' :: '/' :: _ => some 2
  | _ :: rest => (blockWidth? rest).map (· + 1)

/-- The comment whose first slash has been read. -/
def commentAt : List Char → Lexeme × Nat
  | '/' :: rest => (.blank, 2 + (rest.takeWhile (!isLineEnd ·)).length)
  | '*' :: rest =>
    match blockWidth? rest with
    | some width => (.blank, 2 + width)
    | none => (.fault, 1)
  | _ => (.fault, 1)

def quotedAt (quote : Char) (rest : List Char) : Lexeme × Nat :=
  match quotedFrom quote 0 rest with
  | none => (.fault, 1)
  | some (pieces, width) =>
    match joinPieces pieces with
    | none => (.fault, 1)
    | some chars => (.token (.text (String.ofList chars)), 1 + width)

def nameAt (text : List Char) : Lexeme × Nat :=
  match nameFrom true 0 text with
  | (pieces, width) =>
    match pieces, joinPieces pieces with
    | _ :: _, some chars =>
      (.token (.name (String.ofList chars) (!(text.take width).contains '\\')), width)
    | _, _ => (.fault, 1)

def numberLexeme (text : List Char) : Lexeme × Nat :=
  match numberAt text with
  | some (v, width) => (.token (.numeral v), width)
  | none => (.fault, 1)

def lexemeAt (text : List Char) : Lexeme × Nat :=
  match text with
  | [] => (.blank, 1)
  | c :: rest =>
    match c with
    | '\x7b' => (.token .braceOpen, 1)
    | '\x7d' => (.token .braceClose, 1)
    | '[' => (.token .bracketOpen, 1)
    | ']' => (.token .bracketClose, 1)
    | ',' => (.token .comma, 1)
    | ':' => (.token .colon, 1)
    | '"' => quotedAt '"' rest
    | '\'' => quotedAt '\'' rest
    | '/' => commentAt rest
    | c =>
      if isSpace c then (.blank, 1)
      else if isDigit c || c == '+' || c == '-' || c == '.' then numberLexeme text
      else nameAt text

/-- The tokens of a document, when every part of it is a token, a blank or a comment. -/
def tokens? : List Lexeme → Option (List Token)
  | [] => some []
  | .blank :: lexemes => tokens? lexemes
  | .token t :: lexemes => (tokens? lexemes).map (t :: ·)
  | .fault :: _ => none

def lex (text : List Char) : Option (List Token) :=
  tokens? (scan lexemeAt text)

end Devcontainer.Document
