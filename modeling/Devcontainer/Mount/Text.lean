import Devcontainer.Mount.Basic
import Devcontainer.Text.Basic

/-!
# Reading the text of a mount

The text is cut at its commas. Every part that is not blank is one setting; of several settings of
one class the last counts, and settings of different classes do not interfere.
-/

namespace Devcontainer.Mount

open Text

inductive Setting where
  | kind (name : String)
  | source (value : String)
  | target (value : String)
  | readOnly (on : Bool)
  | extra (text : String)
deriving DecidableEq, Repr

/-- The parts between commas without blanks around them; blank parts are dropped. -/
def tokens (text : List Char) : List (List Char) :=
  ((splitOn ',' text).map trim).filter (!·.isEmpty)

/-- A key and its value stand on the two sides of the first equals sign. -/
def Setting.ofToken (token : List Char) : Setting :=
  match cut '=' token with
  | some (key, value) =>
    let key := String.ofList (trim key)
    let value := String.ofList (trim value)
    if key = "type" then .kind value
    else if key = "source" ∨ key = "src" then .source value
    else if key = "target" ∨ key = "dst" ∨ key = "destination" then .target value
    else if key = "readonly" ∨ key = "ro" then .readOnly (value = "true" ∨ value = "1")
    else .extra (String.ofList token)
  | none =>
    let word := String.ofList token
    if word = "readonly" ∨ word = "ro" then .readOnly true else .extra word

namespace Setting

def kind? : Setting → Option String
  | .kind name => some name
  | _ => none

def source? : Setting → Option String
  | .source value => some value
  | _ => none

def target? : Setting → Option String
  | .target value => some value
  | _ => none

def readOnly? : Setting → Option Bool
  | .readOnly on => some on
  | _ => none

def extra? : Setting → Option String
  | .extra text => some text
  | _ => none

end Setting

structure Draft where
  kind : Option Kind
  source : Option String
  target : Option String
  readOnly : Bool
  extra : List String

namespace Draft

def empty : Draft := ⟨none, none, none, false, []⟩

/-- One more setting takes the place of an earlier one of its class. A kind that is not known is
refused at once, even when a later setting names a known one. -/
def add (d : Draft) : Setting → Except Fault Draft
  | .kind name =>
    match Kind.ofName? name with
    | some kind => .ok { d with kind := some kind }
    | none => .error (.unsupportedKind name)
  | .source value => .ok { d with source := some value }
  | .target value => .ok { d with target := some value }
  | .readOnly on => .ok { d with readOnly := on }
  | .extra text => .ok { d with extra := d.extra ++ [text] }

def addAll (d : Draft) : List Setting → Except Fault Draft
  | [] => .ok d
  | setting :: rest =>
    match d.add setting with
    | .error fault => .error fault
    | .ok next => next.addAll rest

/-- A mount has a kind and a target that is not empty. -/
def toMount (d : Draft) : Except Fault Mount :=
  match d.kind with
  | none => .error .missingKind
  | some kind =>
    match d.target with
    | none | some "" => .error .missingTarget
    | some target =>
      .ok { kind, source := d.source, target, readOnly := d.readOnly, extra := d.extra }

end Draft

def ofSettings (settings : List Setting) : Except Fault Mount :=
  match Draft.empty.addAll settings with
  | .error fault => .error fault
  | .ok d => d.toMount

def settings (text : String) : List Setting :=
  (tokens text.toList).map Setting.ofToken

def parse (text : String) : Except Fault Mount :=
  ofSettings (settings text)

end Devcontainer.Mount
