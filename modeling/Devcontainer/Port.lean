import Devcontainer.Text.Basic

/-!
# Ports

A port is given as a number, or as text such as `8000:3000` that maps a host port to a container
port. A number means the same port on both sides.
-/

namespace Devcontainer

inductive Port where
  | number (n : UInt16)
  | text (s : String)
deriving DecidableEq, Repr, Inhabited

namespace Port

def ofText (s : String) : Port :=
  match Text.naturalBelow? UInt16.size s.toList with
  | some n => .number n.toUInt16
  | none => .text s

def decimal (n : UInt16) : String :=
  String.ofList (Text.digits n.toNat)

def toText : Port → String
  | .number n => decimal n
  | .text s => s

/-- The `host:container` form. Text is taken as it stands. -/
def mapping : Port → String
  | .number n => decimal n ++ ":" ++ decimal n
  | .text s => s

def map (f : String → String) : Port → Port
  | .number n => .number n
  | .text s => .text (f s)

def firstOccurrences : (seen : List String) → List String → List String
  | _, [] => []
  | seen, s :: rest =>
    if s ∈ seen then firstOccurrences seen rest else s :: firstOccurrences (s :: seen) rest

/-- The mappings of the ports, each once: those of the application, then those that the caller adds,
then those that are only forwarded. -/
def collect (app added forwarded : List Port) : List String :=
  firstOccurrences [] ((app ++ added ++ forwarded).map mapping)

/-- A mapping has one colon, or none and is then a number below `2 ^ 32`. -/
def isMapping (s : String) : Bool :=
  match s.toList.count ':' with
  | 0 => (Text.naturalBelow? UInt32.size s.toList).isSome
  | 1 => true
  | _ => false

end Port

end Devcontainer
