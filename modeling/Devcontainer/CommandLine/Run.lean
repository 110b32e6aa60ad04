import Devcontainer.CommandLine.Arguments
import Devcontainer.Resolve
import Devcontainer.Script

/-!
# Running a command

A run is a function of the arguments, the environment, the current directory and the files. It
answers what is printed and how the program ends.
-/

namespace Devcontainer.CommandLine

/-- Why a command fails: with an error of the library, or with one of the command itself, which has
nothing behind it. -/
inductive Failure where
  | error (e : Error)
  | plan (e : PlanError)

inductive Outcome where
  | printed (text : String)
  | failed (report : String)
  | usage
deriving DecidableEq, Repr

structure World where
  /-- The entries of the environment, each a name and a value around an equals sign. -/
  env : List String
  cwd : String
  files : FileTree

/-- The value of a variable: what follows its name and an equals sign in the first entry that starts
with the two. -/
def lookup (env : List String) (name : String) : Option String :=
  env.findSome? fun entry =>
    let start := (name ++ "=").toList
    if start.isPrefixOf entry.toList then some (String.ofList (entry.toList.drop start.length))
    else none

def logVariable : String := "DCPLAN_LOG"

/-- A log filter that is not for this program alone. -/
def sharedLogVariable : String := "RUST_LOG"

/-- The environment that commands see: the program sets the filter of its log, unless there is one. -/
def withLogFilter (level : String) (env : List String) : List String :=
  if (lookup env logVariable).isSome || (lookup env sharedLogVariable).isSome then env
  else env ++ [logVariable ++ "=dcplan=" ++ level ++ ",dcplan_core=" ++ level]

def locate (w : World) (r : Request) : Except Error (String × String) :=
  let workspace := r.workspaceFolder.getD w.cwd
  match r.config with
  | some path => .ok (workspace, path)
  | none =>
    match Workspace.discover w.files w.cwd workspace with
    | .ok path => .ok (workspace, path)
    | .error e => .error (.load e)

def contextOf (w : World) (r : Request) (workspace : String) : Context :=
  .ofRoot (Path.join w.cwd workspace) (lookup (withLogFilter r.logLevel w.env))

def parseMounts : List String → Except PlanError (List Mount)
  | [] => .ok []
  | text :: rest =>
    match (Mount.parse text).mapError (PlanError.invalidMount text) with
    | .error e => .error e
    | .ok mount => (parseMounts rest).map (mount :: ·)

def argumentLines (l : Launch) : String :=
  String.intercalate "\n" l.arguments

def printPlan (w : World) (r : Request) (mounts ports : List String) (format : Format)
    (tail : List String) : Except Failure String :=
  match locate w r with
  | .error e => .error (.error e)
  | .ok (workspace, path) =>
    match parseMounts mounts with
    | .error e => .error (.plan e)
    | .ok mounts =>
      let options : Launch.Options :=
        ⟨Path.join w.cwd workspace, mounts, ports.map Port.ofText, tail⟩
      match resolveLaunch w.files w.cwd path (contextOf w r workspace) options with
      | .error e => .error (.error e)
      | .ok launch =>
        .ok ((match format with
          | .json => launch.toJson.indented
          | .args => argumentLines launch) ++ "\n")

def printConfiguration (w : World) (r : Request) : Except Failure String :=
  match locate w r with
  | .error e => .error (.error e)
  | .ok (workspace, path) =>
    match resolve w.files w.cwd path (contextOf w r workspace) with
    | .error e => .error (.error e)
    | .ok (d, _) => .ok (d.toJson.indented ++ "\n")

/-- An unknown phase is refused before anything is read. -/
def printScript (w : World) (r : Request) (phase : Option String) : Except Failure String :=
  match Phase.parse phase with
  | .error e => .error (.error (.lifecycle e))
  | .ok phase =>
    match locate w r with
    | .error e => .error (.error e)
    | .ok (workspace, path) =>
      match resolve w.files w.cwd path (contextOf w r workspace) with
      | .error e => .error (.error e)
      | .ok (d, _) => .ok (d.hooks.script phase)

def printImage (tokens : List String) : Except Failure String :=
  if tokens.head? ≠ some "run" then .error (.plan (.invalidArguments .notRun))
  else
    match RunVector.check tokens with
    | .error fault => .error (.error (.plan (.invalidArguments fault)))
    | .ok () =>
      match RunVector.image tokens with
      | .error fault => .error (.error (.plan (.invalidArguments fault)))
      | .ok image => .ok (image ++ "\n")

def indent (margin : String) (text : String) : String :=
  String.ofList (text.toList.flatMap fun c => if c = '\n' then '\n' :: margin.toList else [c])

/-- The report of a failure: the error, and behind it what caused it. Of several causes each has its
number. -/
def Failure.report : Failure → String
  | .plan e => "Error: " ++ e.message
  | .error e =>
    "Error: " ++ e.message ++ "\n\nCaused by:" ++
      match e.causes with
      | [cause] => "\n    " ++ indent "    " cause
      | causes => String.join <| causes.zipIdx.map fun (cause, n) =>
          "\n    " ++ toString n ++ ": " ++ indent "       " cause

def execute (w : World) (r : Request) : Except Failure String :=
  match r.action with
  | .plan mounts ports format tail => printPlan w r mounts ports format tail
  | .readConfiguration => printConfiguration w r
  | .lifecycleScript phase => printScript w r phase
  | .checkArgs tokens => printImage tokens

def versionText : String := "dcplan 0.1.0\n"

def helpText : String :=
  "Devcontainer invocation planner\n\nUsage: dcplan [OPTIONS] <COMMAND>\n\nCommands:\n"
    ++ "  plan                Resolve the descriptor into a container run plan\n"
    ++ "  read-configuration  Print the merged and expanded descriptor\n"
    ++ "  lifecycle-script    Print the lifecycle script of the descriptor\n"
    ++ "  check-args          Check a container run vector and print its image\n"

def run (w : World) (args : List String) : Outcome :=
  match parse args with
  | .usage => .usage
  | .help => .printed helpText
  | .version => .printed versionText
  | .done request =>
    match execute w request with
    | .ok text => .printed text
    | .error failure => .failed failure.report

end Devcontainer.CommandLine
