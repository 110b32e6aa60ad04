import Devcontainer.Json.Basic

/-!
# Tokens of a document
-/

namespace Devcontainer.Document

inductive Token where
  | braceOpen | braceClose
  | bracketOpen | bracketClose
  | comma | colon
  /-- A quoted text. -/
  | text (s : String)
  /-- An unquoted name; `plain` when it is written without escapes. -/
  | name (s : String) (plain : Bool)
  /-- A number as written, or what stands in place of one that is not finite. -/
  | numeral (v : Json)
deriving DecidableEq, Repr, Inhabited

inductive Lexeme where
  | blank
  | token (t : Token)
  | fault
deriving DecidableEq, Repr, Inhabited

end Devcontainer.Document
