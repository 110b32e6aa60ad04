import Devcontainer.Json.Basic

/-!
# Lifecycle commands

A command is a line for a shell, a list of words run without one, or a list of named steps that are
commands themselves. The JSON of a command has exactly these three shapes.
-/

namespace Devcontainer

inductive Command where
  | shell (line : String)
  | args (words : List String)
  | steps (named : List (String × Command))
deriving Repr, Inhabited

namespace Command

mutual

def decEq : (a b : Command) → Decidable (a = b)
  | .shell a, .shell b => decidable_of_iff (a = b) (by simp)
  | .args a, .args b => decidable_of_iff (a = b) (by simp)
  | .steps as, .steps bs =>
    have := decEqSteps as bs
    decidable_of_iff (as = bs) (by simp)
  | .shell _, .args _ | .shell _, .steps _ | .args _, .shell _ | .args _, .steps _
  | .steps _, .shell _ | .steps _, .args _ => isFalse (by simp)

def decEqSteps : (as bs : List (String × Command)) → Decidable (as = bs)
  | [], [] => isTrue rfl
  | [], _ :: _ | _ :: _, [] => isFalse (by simp)
  | (j, a) :: as, (k, b) :: bs =>
    have := decEq a b
    have := decEqSteps as bs
    decidable_of_iff (j = k ∧ a = b ∧ as = bs) (by simp [and_assoc])

end

instance : DecidableEq Command := decEq

inductive Fault where
  /-- The value has none of the three shapes. -/
  | shape (found : Json.Kind)
  /-- An item of a list of words is no string. -/
  | word (found : Json.Kind)
  /-- The step of this name is at fault. -/
  | step (name : String) (cause : Fault)
deriving DecidableEq, Repr

def kindName : Json.Kind → String
  | .null => "null"
  | .bool => "boolean"
  | .number => "number"
  | .string => "string"
  | .array => "array"
  | .object => "object"

def Fault.message : Fault → String
  | .shape found =>
    "Invalid lifecycle command: expected string, array of strings or object, got " ++ kindName found
  | .word found =>
    "Invalid lifecycle command: array element must be a string, got " ++ kindName found
  | .step name cause =>
    "Invalid lifecycle command: in sub-command '" ++ name ++ "': " ++ cause.message

def wordsOfJson : List Json → Except Fault (List String)
  | [] => .ok []
  | .string s :: items => (wordsOfJson items).map (s :: ·)
  | item :: _ => .error (.word item.kind)

mutual

def ofJson : Json → Except Fault Command
  | .string s => .ok (.shell s)
  | .array items => (wordsOfJson items).map .args
  | .object members => (stepsOfJson members).map .steps
  | v => .error (.shape v.kind)

def stepsOfJson : List (String × Json) → Except Fault (List (String × Command))
  | [] => .ok []
  | (name, v) :: members =>
    match ofJson v with
    | .error cause => .error (.step name cause)
    | .ok command => (stepsOfJson members).map ((name, command) :: ·)

end

mutual

def toJson : Command → Json
  | .shell line => .string line
  | .args words => .array (words.map .string)
  | .steps named => .object (stepsToJson named)

def stepsToJson : List (String × Command) → List (String × Json)
  | [] => []
  | (name, command) :: rest => (name, command.toJson) :: stepsToJson rest

end

mutual

/-- Applies a function to every line and word, and to no name of a step. -/
def map (f : String → String) : Command → Command
  | .shell line => .shell (f line)
  | .args words => .args (words.map f)
  | .steps named => .steps (mapSteps f named)

def mapSteps (f : String → String) : List (String × Command) → List (String × Command)
  | [] => []
  | (name, command) :: rest => (name, command.map f) :: mapSteps f rest

end

mutual

def mapM {m : Type → Type} [Monad m] (f : String → m String) : Command → m Command
  | .shell line => return .shell (← f line)
  | .args words => return .args (← words.mapM f)
  | .steps named => return .steps (← mapStepsM f named)

def mapStepsM {m : Type → Type} [Monad m] (f : String → m String) :
    List (String × Command) → m (List (String × Command))
  | [] => return []
  | (name, command) :: rest => return (name, ← command.mapM f) :: (← mapStepsM f rest)

end

mutual

def strings : Command → List String
  | .shell line => [line]
  | .args words => words
  | .steps named => stringsOfSteps named

def stringsOfSteps : List (String × Command) → List String
  | [] => []
  | (_, command) :: rest => command.strings ++ stringsOfSteps rest

end

end Command

end Devcontainer
