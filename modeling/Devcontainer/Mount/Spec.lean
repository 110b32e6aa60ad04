import Devcontainer.Json.Printer
import Devcontainer.Mount.Text

/-!
# Declared mounts

A descriptor declares a mount as a text or as an object with four keys, all of them optional.
-/

namespace Devcontainer.Mount

structure Fields where
  kind : Option String
  source : Option String
  target : Option String
  readOnly : Option Bool
deriving DecidableEq, Repr, Inhabited

inductive Spec where
  | text (s : String)
  | fields (f : Fields)
deriving DecidableEq, Repr, Inhabited

namespace Fields

def toJson (f : Fields) : Json :=
  .object <|
    (f.kind.map fun s => ("type", Json.string s)).toList
      ++ (f.source.map fun s => ("source", Json.string s)).toList
      ++ (f.target.map fun s => ("target", Json.string s)).toList
      ++ (f.readOnly.map fun b => ("readOnly", Json.bool b)).toList

/-- A mount without a kind, or with an empty one, binds a directory. -/
def kind? (f : Fields) : Except Fault Kind :=
  match f.kind with
  | none | some "" => .ok .bind
  | some name =>
    match Kind.ofName? name with
    | some kind => .ok kind
    | none => .error (.unsupportedKind name)

def toMount (f : Fields) : Except Fault Mount :=
  match f.kind? with
  | .error fault => .error fault
  | .ok kind =>
    match f.target with
    | none | some "" => .error .missingTarget
    | some target =>
      .ok { kind, source := f.source, target, readOnly := f.readOnly.getD false, extra := [] }

def map (f : String → String) (fields : Fields) : Fields :=
  { fields with source := fields.source.map f, target := fields.target.map f }

def mapM {m : Type → Type} [Monad m] (f : String → m String) (fields : Fields) : m Fields :=
  return { fields with source := ← fields.source.mapM f, target := ← fields.target.mapM f }

def strings (f : Fields) : List String :=
  f.source.toList ++ f.target.toList

end Fields

namespace Spec

def toJson : Spec → Json
  | .text s => .string s
  | .fields f => f.toJson

def describe : Spec → String
  | .text s => s
  | .fields f => f.toJson.compact

def toMount : Spec → Except Fault Mount
  | .text s => parse s
  | .fields f => f.toMount

def map (f : String → String) : Spec → Spec
  | .text s => .text (f s)
  | .fields given => .fields (given.map f)

def mapM {m : Type → Type} [Monad m] (f : String → m String) : Spec → m Spec
  | .text s => return .text (← f s)
  | .fields given => return .fields (← given.mapM f)

def strings : Spec → List String
  | .text s => [s]
  | .fields f => f.strings

end Spec

def toSpec (m : Mount) : Spec :=
  .text m.canonical

end Devcontainer.Mount
