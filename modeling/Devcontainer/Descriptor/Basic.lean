import Devcontainer.Hooks
import Devcontainer.Mount.Spec
import Devcontainer.Port

/-!
# Descriptors

What a descriptor says about the container of a workspace. A list or map that the document leaves
out is empty here; of the run arguments alone an empty list differs from none.
-/

namespace Devcontainer

inductive Selector where
  | image (reference : String)
  | dockerfile (path : String)
  | compose (files : List String)
deriving DecidableEq, Repr, Inhabited

namespace Selector

inductive Kind where
  | image | dockerfile | compose
deriving DecidableEq, Repr

def Kind.name : Kind → String
  | .image => "image"
  | .dockerfile => "dockerfile"
  | .compose => "compose"

def kind : Selector → Kind
  | .image _ => .image
  | .dockerfile _ => .dockerfile
  | .compose _ => .compose

def isEmpty : Selector → Bool
  | .image reference => reference.isEmpty
  | .dockerfile path => path.isEmpty
  | .compose files => files.isEmpty

def image? : Selector → Option String
  | .image reference => some reference
  | _ => none

end Selector

/-- A text written alone or in a list. -/
inductive OneOrMany where
  | one (s : String)
  | many (ss : List String)
deriving DecidableEq, Repr, Inhabited

structure Build where
  dockerfile : Option String
  context : Option String
  args : OrderedMap String
  target : Option String
  cacheFrom : Option OneOrMany
  other : OrderedMap Json
deriving DecidableEq, Inhabited

inductive Amount where
  | number (x : Binary64)
  | text (s : String)
deriving DecidableEq, Repr, Inhabited

namespace Amount

/-- The amount as a positive whole number. A number above the 64-bit range counts as the greatest
one in it; a text above the range counts as none. -/
def positive? : Amount → Option Nat
  | .number x =>
    match x.toInt? with
    | some n => if 1 ≤ n then some (min n.toNat (UInt64.size - 1)) else none
    | none => none
  | .text s => (Text.naturalBelow? UInt64.size (Text.trim s.toList)).filter (0 < ·)

def toJson : Amount → Json
  | .number x => .number (.float x)
  | .text s => .string s

end Amount

structure HostRequirements where
  cpus : Option Amount
  memory : Option Amount
  storage : Option Amount
  gpu : Option Json
  other : OrderedMap Json
deriving DecidableEq, Inhabited

def HostRequirements.badCpus? (h : HostRequirements) : Option Amount :=
  h.cpus.filter (·.positive?.isNone)

@[ext] structure Descriptor where
  /-- The descriptor that this one builds upon. -/
  ancestor : Option String
  name : Option String
  selector : Option Selector
  build : Option Build
  /-- The service of a compose project that is the container. -/
  service : Option String
  runServices : List String
  workspaceFolder : Option String
  workspaceMount : Option String
  containerEnv : OrderedMap String
  /-- A variable without a value is unset in the remote session. -/
  remoteEnv : OrderedMap (Option String)
  containerUser : Option String
  remoteUser : Option String
  forwardPorts : List Port
  appPorts : List Port
  runArgs : Option (List String)
  hooks : Hooks
  mounts : List Mount.Spec
  capAdd : List String
  securityOpt : List String
  init : Option Bool
  privileged : Option Bool
  features : OrderedMap Json
  customizations : Option Json
  hostRequirements : Option HostRequirements
  /-- Keys that have no meaning here. -/
  other : OrderedMap Json
deriving DecidableEq, Inhabited

namespace Descriptor

def empty : Descriptor where
  ancestor := none
  name := none
  selector := none
  build := none
  service := none
  runServices := []
  workspaceFolder := none
  workspaceMount := none
  containerEnv := .empty
  remoteEnv := .empty
  containerUser := none
  remoteUser := none
  forwardPorts := []
  appPorts := []
  runArgs := none
  hooks := .empty
  mounts := []
  capAdd := []
  securityOpt := []
  init := none
  privileged := none
  features := .empty
  customizations := none
  hostRequirements := none
  other := .empty

def image? (d : Descriptor) : Option String :=
  d.selector.bind Selector.image?

def usesCompose (d : Descriptor) : Bool :=
  d.selector.any (·.kind == .compose)

end Descriptor

end Devcontainer
