/-!
# Argument vectors of a run

Some flags take the token behind them as their value. The first token that is neither a flag nor such
a value is the image.
-/

namespace Devcontainer.RunVector

def valueFlags : List String := [
  "-e", "--env", "-p", "--publish", "-v", "--volume", "-w", "--workdir", "-u", "--user", "--name",
  "--mount", "--cap-add", "--security-opt", "--entrypoint", "--network", "--hostname",
  "--domainname", "--mac-address", "--ip", "--ip6", "--link", "--label", "--log-driver",
  "--log-opt", "--memory", "--memory-swap", "--memory-reservation", "--cpus", "--cpuset-cpus",
  "--device", "--group-add", "--pid", "--ipc", "--restart", "--ulimit", "--storage-opt", "--tmpfs",
  "--health-cmd", "--health-interval", "--health-retries", "--health-timeout",
  "--health-start-period"]

def takesValue (token : String) : Bool :=
  valueFlags.contains token

def isFlag (token : String) : Bool :=
  ['-'].isPrefixOf token.toList

inductive Fault where
  | emptyFlag
  | missingValue (flag : String)
  | imageNotFound
  | noImage
  | notRun
deriving DecidableEq, Repr

def Fault.message : Fault → String
  | .emptyFlag => "empty flag"
  | .missingValue flag => "flag " ++ flag ++ " requires an argument"
  | .imageNotFound => "image not found in run command"
  | .noImage => "run command has no image"
  | .notRun => "expected a run command"

/-- The first token that is no flag and no value. A flag that takes a value must be followed by a
token that is no flag. -/
def positional? : List String → Except Fault (Option String)
  | [] => .ok none
  | token :: rest =>
    if token.isEmpty then .error .emptyFlag
    else if !isFlag token then .ok (some token)
    else if takesValue token then
      match rest with
      | [] => .error (.missingValue token)
      | value :: rest => if isFlag value then .error (.missingValue token) else positional? rest
    else positional? rest

/-- The first token that is no flag and does not follow a flag that takes a value. -/
def firstWord? : List String → Option String
  | [] => none
  | token :: rest =>
    if !isFlag token then some token
    else if takesValue token then
      match rest with
      | [] => none
      | _ :: rest => firstWord? rest
    else firstWord? rest

def withoutRun : List String → List String
  | "run" :: rest => rest
  | tokens => tokens

/-- The image of a vector; the word `run` may lead it. -/
def image (tokens : List String) : Except Fault String :=
  match firstWord? (withoutRun tokens) with
  | some image => .ok image
  | none => .error .imageNotFound

/-- Checks a vector that starts with `run`, and accepts every other one. -/
def check : List String → Except Fault Unit
  | "run" :: rest =>
    match positional? rest with
    | .error fault => .error fault
    | .ok (some _) => .ok ()
    | .ok none => .error .noImage
  | _ => .ok ()

/-- Checks flags alone: words may stand between them. -/
def checkFlags : List String → Except Fault Unit
  | [] => .ok ()
  | token :: rest =>
    if token.isEmpty then .error .emptyFlag
    else if takesValue token then
      match rest with
      | [] => .error (.missingValue token)
      | value :: rest => if isFlag value then .error (.missingValue token) else checkFlags rest
    else checkFlags rest

end Devcontainer.RunVector
