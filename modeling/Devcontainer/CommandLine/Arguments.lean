import Devcontainer.Text.Basic

/-!
# Arguments of the command line

Options come before or after the name of a command; those that every command shares may stand in
both places, and then the later place counts. An option takes its value from behind an equals sign or
from the next argument. Anything else is a usage error, found at the first argument that does not fit.
-/

namespace Devcontainer.CommandLine

inductive Format where
  | json | args
deriving DecidableEq, Repr

inductive Action where
  | plan (mounts ports : List String) (format : Format) (tail : List String)
  | readConfiguration
  | lifecycleScript (phase : Option String)
  | checkArgs (tokens : List String)
deriving DecidableEq, Repr

structure Request where
  logLevel : String
  workspaceFolder : Option String
  config : Option String
  action : Action
deriving DecidableEq, Repr

inductive Reading (α : Type) where
  | done (a : α)
  | usage
  | help
  | version

def Reading.bind {α β : Type} (r : Reading α) (f : α → Reading β) : Reading β :=
  match r with
  | .done a => f a
  | .usage => .usage
  | .help => .help
  | .version => .version

structure OptionSpec where
  name : String
  repeatable : Bool
  accepts : String → Bool

def sharedOptions : List OptionSpec := [
  ⟨"--log-format", false, ["text", "json"].contains⟩,
  ⟨"--log-level", false, ["error", "warn", "info", "debug", "trace"].contains⟩,
  ⟨"--workspace-folder", false, (· != "")⟩,
  ⟨"--config", false, (· != "")⟩]

def planOptions : List OptionSpec := [
  ⟨"--mount", true, fun _ => true⟩,
  ⟨"--app-port", true, fun _ => true⟩,
  ⟨"--format", false, ["json", "args"].contains⟩]

def scriptOptions : List OptionSpec := [⟨"--phase", false, fun _ => true⟩]

inductive Words where
  /-- Nothing. -/
  | none
  /-- Words behind a double dash. -/
  | behindDashes
  /-- Words from the first argument on that is no option, flags among them. -/
  | all
deriving DecidableEq, Repr

structure Given where
  values : List (String × String)
  words : List String
deriving DecidableEq, Repr

namespace Given

def get? (g : Given) (name : String) : Option String :=
  g.values.reverse.lookup name

def getAll (g : Given) (name : String) : List String :=
  (g.values.filter (·.1 == name)).map Prod.snd

/-- Adds a value, when the option takes it and may be given again. -/
def add (g : Given) (spec : OptionSpec) (value : String) : Reading Given :=
  if !spec.accepts value || (!spec.repeatable && (g.get? spec.name).isSome) then .usage
  else .done { g with values := g.values ++ [(spec.name, value)] }

end Given

def startsWith (start : String) (arg : String) : Bool :=
  start.toList.isPrefixOf arg.toList

/-- An argument that looks like an option: a dash with something behind it. -/
def isDashed (arg : String) : Bool :=
  startsWith "-" arg && arg != "-"

/-- A long option's name, and its value behind an equals sign if there is one. -/
def splitOption (arg : String) : String × Option String :=
  match Text.cut '=' arg.toList with
  | some (name, value) => (String.ofList name, some (String.ofList value))
  | none => (arg, none)

def isLong (arg : String) : Bool :=
  startsWith "--" arg

/-- What a dashed argument asks for by itself, at a place where the given single letters are known.
The first letter decides. -/
def immediate? {α : Type} (versionKnown : Bool) (arg : String) : Option (Reading α) :=
  if isLong arg then
    match splitOption arg with
    | ("--help", none) => some .help
    | ("--version", none) => if versionKnown then some .version else none
    | _ => none
  else
    match arg.toList with
    | _ :: 'h' :: _ => some .help
    | _ :: 'V' :: _ => if versionKnown then some .version else none
    | _ => none

/-- Whether a dashed argument may be a word among the words of a command that takes all of them. -/
def isWord (specs : List OptionSpec) (arg : String) : Bool :=
  if isLong arg then
    let name := (splitOption arg).1
    arg != "--" && name != "--help" && !specs.any (·.name == name)
  else !(arg.toList.drop 1).all (· == 'h')

/-- Whether an argument may be the value of the option before it. -/
def isValue (specs : List OptionSpec) (words : Words) (arg : String) : Bool :=
  !isDashed arg || (words == .all && isWord specs arg)

def readCommand (specs : List OptionSpec) (words : Words) (g : Given) : List String → Reading Given
  | [] => .done g
  | "--" :: rest =>
    match words, rest with
    | .none, _ :: _ => .usage
    | _, _ => .done { g with words := rest }
  | arg :: rest =>
    if !isDashed arg || (words == .all && isWord specs arg) then
      match words with
      | .all => .done { g with words := arg :: rest }
      | _ => .usage
    else
      match immediate? false arg with
      | some reading => reading
      | none =>
        match specs.find? (·.name == (splitOption arg).1), (splitOption arg).2, rest with
        | none, _, _ => .usage
        | some spec, some value, rest =>
          (g.add spec value).bind fun g => readCommand specs words g rest
        | some _, none, [] => .usage
        | some spec, none, value :: rest =>
          if isValue specs words value then
            (g.add spec value).bind fun g => readCommand specs words g rest
          else .usage

/-- Reads the options before the name of the command; answers that name and what follows it. -/
def readShared (g : Given) : List String → Reading (Given × String × List String)
  | [] => .usage
  | arg :: rest =>
    if !isDashed arg then .done (g, arg, rest)
    else
      match immediate? true arg with
      | some reading => reading
      | none =>
        match sharedOptions.find? (·.name == (splitOption arg).1), (splitOption arg).2, rest with
        | none, _, _ => .usage
        | some spec, some value, rest => (g.add spec value).bind fun g => readShared g rest
        | some _, none, [] => .usage
        | some spec, none, value :: rest =>
          if isValue sharedOptions .none value then
            (g.add spec value).bind fun g => readShared g rest
          else .usage

def noneGiven : Given := ⟨[], []⟩

def commandNames : List String :=
  ["plan", "read-configuration", "lifecycle-script", "check-args", "help"]

def readHelp : List String → Reading (Given × Action)
  | [] => .help
  | [name] => if name ∈ commandNames then .help else .usage
  | _ => .usage

def actionOf (name : String) (args : List String) : Reading (Given × Action) :=
  match name with
  | "plan" =>
    (readCommand (sharedOptions ++ planOptions) .behindDashes noneGiven args).bind fun g =>
      let format := if g.get? "--format" = some "args" then .args else .json
      .done (g, .plan (g.getAll "--mount") (g.getAll "--app-port") format g.words)
  | "read-configuration" =>
    (readCommand sharedOptions .none noneGiven args).bind fun g => .done (g, .readConfiguration)
  | "lifecycle-script" =>
    (readCommand (sharedOptions ++ scriptOptions) .none noneGiven args).bind fun g =>
      .done (g, .lifecycleScript (g.get? "--phase"))
  | "check-args" =>
    (readCommand sharedOptions .all noneGiven args).bind fun g =>
      if g.words.isEmpty then .usage else .done (g, .checkArgs g.words)
  | "help" => readHelp args
  | _ => .usage

def parse (args : List String) : Reading Request :=
  (readShared noneGiven args).bind fun (outer, name, rest) =>
    (actionOf name rest).bind fun (inner, action) =>
      let get (option : String) := (inner.get? option).or (outer.get? option)
      .done {
        logLevel := (get "--log-level").getD "warn"
        workspaceFolder := get "--workspace-folder"
        config := get "--config"
        action }

end Devcontainer.CommandLine
