/-!
# Mounts

What a container sees at a path: a directory of the host, a volume or memory.
-/

namespace Devcontainer

namespace Mount

inductive Kind where
  | bind | volume | tmpfs
deriving DecidableEq, Repr, Inhabited

namespace Kind

def all : List Kind := [.bind, .volume, .tmpfs]

def name : Kind → String
  | .bind => "bind"
  | .volume => "volume"
  | .tmpfs => "tmpfs"

def ofName? (name : String) : Option Kind :=
  all.find? (·.name == name)

end Kind

inductive Fault where
  | unsupportedKind (name : String)
  | missingKind
  | missingTarget
deriving DecidableEq, Repr

def Fault.message : Fault → String
  | .unsupportedKind name =>
    "unsupported mount type '" ++ name ++ "', expected bind, volume or tmpfs"
  | .missingKind => "missing type"
  | .missingTarget => "missing target"

end Mount

structure Mount where
  kind : Mount.Kind
  /-- A path of the host or the name of a volume. -/
  source : Option String
  /-- A path of the container. -/
  target : String
  readOnly : Bool
  /-- Options without a meaning here, carried along as they stand. -/
  extra : List String
deriving DecidableEq, Repr, Inhabited

namespace Mount

/-- The options of a mount in their fixed order. An empty source is none. -/
def options (m : Mount) : List String :=
  ["type=" ++ m.kind.name]
    ++ (match m.source with
      | some s => if s.isEmpty then [] else ["source=" ++ s]
      | none => [])
    ++ ["target=" ++ m.target]
    ++ (if m.readOnly then ["readonly"] else [])
    ++ m.extra

def canonical (m : Mount) : String :=
  String.intercalate "," m.options

/-- The declared mounts whose target no injected mount has, then the injected mounts. -/
def inject (declared injected : List Mount) : List Mount :=
  declared.filter (fun m => !injected.any (·.target == m.target)) ++ injected

end Mount

end Devcontainer
