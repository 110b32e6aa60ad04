import Devcontainer.Descriptor.Document
import Devcontainer.FileTree
import Devcontainer.RunVector

/-!
# Errors

Everything that can go wrong on the way from a document to a launch, as causes. The wording is in the
`message` of each kind.
-/

namespace Devcontainer

inductive LoadError where
  /-- The text at `path`, or a text without a place, is no descriptor. -/
  | invalid (path : Option String) (cause : Descriptor.Invalid)
  | badCpus (amount : Amount)
  /-- A document builds upon itself; the places on the way, up to the one that comes again. -/
  | cycle (places : List String)
  | notFound (path : String)
  | unreadable (path : String) (cause : ReadFault)
deriving DecidableEq

inductive PlanError where
  | noImage
  | unsupportedSelector (kind : Selector.Kind)
  | unresolved (names : List String)
  | invalidMount (mount : String) (cause : Mount.Fault)
  | invalidPort (port : String)
  | invalidArguments (cause : RunVector.Fault)
deriving DecidableEq

inductive LifecycleError where
  | unknownPhase (name : String)
  | invalidCommand (cause : Command.Fault)
deriving DecidableEq

inductive Error where
  | load (e : LoadError)
  | plan (e : PlanError)
  | lifecycle (e : LifecycleError)
deriving DecidableEq

namespace LoadError

/-- Names the place of a document in front of what is wrong with its text. -/
def placed (path : Option String) (message : String) : String :=
  match path with
  | some path => path ++ ": " ++ message
  | none => message

def message : LoadError → String
  | .invalid path .malformed =>
    "Failed to parse configuration file: "
      ++ placed path "JSON parsing error: the text is no JSON document"
  | .invalid path (.field fault) =>
    "Failed to parse configuration file: " ++ placed path fault.message
  | .invalid _ .notObject =>
    "Configuration validation error: Dev container config must contain a JSON object literal."
  | .invalid _ (.manySelectors kinds) =>
    "Configuration validation error: only one container selector may be specified, found: "
      ++ String.intercalate ", " (kinds.map Selector.Kind.name)
  | .badCpus amount =>
    "Configuration validation error: hostRequirements.cpus must be a positive integer, got "
      ++ amount.toJson.compact
  | .cycle places => "Cycle detected in extends chain: " ++ String.intercalate " -> " places
  | .notFound path => "Configuration file not found: " ++ path
  | .unreadable path _ => "Failed to read configuration file " ++ path

end LoadError

def PlanError.message : PlanError → String
  | .noImage => "No image specified"
  | .unsupportedSelector kind => "Unsupported container selector: " ++ kind.name
  | .unresolved names => "Unresolved localEnv variables: " ++ String.intercalate ", " names
  | .invalidMount mount cause => "Invalid mount '" ++ mount ++ "': " ++ cause.message
  | .invalidPort port => "Invalid port format: " ++ port
  | .invalidArguments cause => "Invalid arguments: " ++ cause.message

def LifecycleError.message : LifecycleError → String
  | .unknownPhase name => "Unknown phase: " ++ name
  | .invalidCommand cause => cause.message

namespace Error

def message : Error → String
  | .load e => "Configuration error: " ++ e.message
  | .plan e => "Plan error: " ++ e.message
  | .lifecycle e => "Lifecycle error: " ++ e.message

/-- What lies behind an error, from the outside in. -/
def causes : Error → List String
  | .load (.unreadable path cause) => [(LoadError.unreadable path cause).message, cause.message]
  | .load e => [e.message]
  | .plan e => [e.message]
  | .lifecycle e => [e.message]

end Error

def Phase.parse (name : Option String) : Except LifecycleError Phase :=
  match Phase.ofName? name with
  | some phase => .ok phase
  | none => .error (.unknownPhase (name.getD ""))

def Mount.Spec.resolve (spec : Mount.Spec) : Except PlanError Mount :=
  spec.toMount.mapError (.invalidMount spec.describe)

def Port.check (mapping : String) : Except PlanError Unit :=
  if Port.isMapping mapping then .ok () else .error (.invalidPort mapping)

end Devcontainer
