import Devcontainer.Document.Lexer

/-!
# Reading a document

The tokens are read one by one while a stack holds the arrays and objects that are still open. A
comma may stand before a closing bracket or brace, once. A key that is written again keeps its place
and takes the later value.
-/

namespace Devcontainer.Document

inductive Frame where
  | array (items : List Json)
  | object (members : List (String × Json)) (key : String)
deriving DecidableEq, Repr

/-- What has been read of a document, and so what may follow. -/
inductive State where
  /-- A value. -/
  | value (outer : List Frame)
  /-- An item, or the end of the array. -/
  | item (items : List Json) (outer : List Frame)
  /-- A key, or the end of the object. -/
  | member (members : List (String × Json)) (outer : List Frame)
  /-- The colon after a key. -/
  | afterKey (members : List (String × Json)) (key : String) (outer : List Frame)
  /-- A comma or the end of what is around the value; the end of the document after the whole one. -/
  | afterValue (v : Json) (outer : List Frame)
deriving DecidableEq, Repr

def nameValue? (s : String) (plain : Bool) : Option Json :=
  if !plain then none
  else if s == "null" then some .null
  else if s == "true" then some (.bool true)
  else if s == "false" then some (.bool false)
  else if s == "Infinity" || s == "NaN" then some .null
  else none

def startValue (outer : List Frame) : Token → Option State
  | .braceOpen => some (.member [] outer)
  | .bracketOpen => some (.item [] outer)
  | .text s => some (.afterValue (.string s) outer)
  | .numeral v => some (.afterValue v outer)
  | .name s plain => (nameValue? s plain).map (.afterValue · outer)
  | _ => none

def State.step : State → Token → Option State
  | .value outer, t => startValue outer t
  | .item items outer, .bracketClose => some (.afterValue (.array items) outer)
  | .item items outer, t => startValue (.array items :: outer) t
  | .member members outer, .braceClose => some (.afterValue (.object members) outer)
  | .member members outer, .text key => some (.afterKey members key outer)
  | .member members outer, .name key _ => some (.afterKey members key outer)
  | .afterKey members key outer, .colon => some (.value (.object members key :: outer))
  | .afterValue v (.array items :: outer), .comma => some (.item (items ++ [v]) outer)
  | .afterValue v (.array items :: outer), .bracketClose =>
    some (.afterValue (.array (items ++ [v])) outer)
  | .afterValue v (.object members key :: outer), .comma =>
    some (.member (Entries.put key v members) outer)
  | .afterValue v (.object members key :: outer), .braceClose =>
    some (.afterValue (.object (Entries.put key v members)) outer)
  | _, _ => none

def ofTokens? (ts : List Token) : Option Json :=
  match ts.foldlM State.step (.value []) with
  | some (.afterValue v []) => some v
  | _ => none

def read? (text : String) : Option Json :=
  (lex text.toList).bind ofTokens?

end Devcontainer.Document
