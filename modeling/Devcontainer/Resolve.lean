import Devcontainer.Ancestry
import Devcontainer.Launch

/-!
# From a path to a launch
-/

namespace Devcontainer

def resolve (t : FileTree) (cwd path : String) (c : Context) : Except Error (Descriptor × Report) :=
  match Ancestry.load t cwd path with
  | .error e => .error (.load e)
  | .ok d => (d.expandInPlace c).mapError .plan

def resolveLaunch (t : FileTree) (cwd path : String) (c : Context) (o : Launch.Options) :
    Except Error Launch :=
  match Ancestry.load t cwd path with
  | .error e => .error (.load e)
  | .ok d => Launch.plan c o d

end Devcontainer
