import Devcontainer.Hooks
import Devcontainer.Shell

/-!
# Lifecycle scripts

The commands of a phase as one shell script. Every command stands under a comment with the key of
its hook, and every named step under a comment with its path of names.
-/

namespace Devcontainer

namespace Command

mutual

/-- The lines of a command. An empty line or list of words has none. -/
def lines (label : String) : Command → List String
  | .shell line => if line.isEmpty then [] else [line]
  | .args words => if words.isEmpty then [] else [Shell.line words]
  | .steps named => linesOfSteps label named

def linesOfSteps (label : String) : List (String × Command) → List String
  | [] => []
  | (name, command) :: rest =>
    let path := label ++ "." ++ name
    ("# " ++ path) :: command.lines path ++ linesOfSteps label rest

end

end Command

namespace Hooks

def scriptHead : String := "#!/bin/sh\nset -e\n\n"

def section? (hooks : Hooks) (hook : Hook) : Option (List String) :=
  (hooks.get hook).map fun command => ("# " ++ hook.key) :: command.lines hook.key ++ [""]

def script (hooks : Hooks) (phase : Phase) : String :=
  let lines := (phase.hooks.filterMap hooks.section?).flatten
  scriptHead ++ String.join (lines.map (· ++ "\n"))

end Hooks

end Devcontainer
