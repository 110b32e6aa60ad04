import Devcontainer.Descriptor.Basic
import Devcontainer.Json.Merge

/-!
# Merging descriptors

An overlay on a base. A text or list of the overlay counts when it is not empty; flags, run
arguments, requirements and hooks count when they are there; maps are joined key by key. A selector of
another kind than the base's makes the base's build and compose settings void.
-/

namespace Devcontainer

namespace Merge

def text (base overlay : Option String) : Option String :=
  match overlay with
  | some s => if s.isEmpty then base else some s
  | none => base

def list {α : Type} (base overlay : List α) : List α :=
  if overlay.isEmpty then base else overlay

def json (base overlay : Option Json) : Option Json :=
  match base, overlay with
  | some b, some o => some (b.merge o)
  | base, overlay => overlay.or base

def selector (base overlay : Option Selector) : Option Selector :=
  match overlay with
  | some s => if s.isEmpty then base else some s
  | none => base

/-- Whether the overlay selects another kind of container than the base does. -/
def switches (base overlay : Option Selector) : Bool :=
  match base, overlay with
  | some b, some o => !o.isEmpty && b.kind != o.kind
  | _, _ => false

end Merge

namespace Descriptor

def merge (base overlay : Descriptor) : Descriptor :=
  let companions := if Merge.switches base.selector overlay.selector then overlay else base
  { ancestor := Merge.text base.ancestor overlay.ancestor
    name := Merge.text base.name overlay.name
    selector := Merge.selector base.selector overlay.selector
    build := overlay.build.or companions.build
    service := Merge.text companions.service overlay.service
    runServices := Merge.list companions.runServices overlay.runServices
    workspaceFolder := Merge.text base.workspaceFolder overlay.workspaceFolder
    workspaceMount := Merge.text base.workspaceMount overlay.workspaceMount
    containerEnv := base.containerEnv.union overlay.containerEnv
    remoteEnv := base.remoteEnv.union overlay.remoteEnv
    containerUser := Merge.text base.containerUser overlay.containerUser
    remoteUser := Merge.text base.remoteUser overlay.remoteUser
    forwardPorts := Merge.list base.forwardPorts overlay.forwardPorts
    appPorts := Merge.list base.appPorts overlay.appPorts
    runArgs := overlay.runArgs.or base.runArgs
    hooks := base.hooks.overlay overlay.hooks
    mounts := Merge.list base.mounts overlay.mounts
    capAdd := Merge.list base.capAdd overlay.capAdd
    securityOpt := Merge.list base.securityOpt overlay.securityOpt
    init := overlay.init.or base.init
    privileged := overlay.privileged.or base.privileged
    features := base.features.union overlay.features
    customizations := Merge.json base.customizations overlay.customizations
    hostRequirements := overlay.hostRequirements.or base.hostRequirements
    other := base.other.union overlay.other }

/-- A side that is missing leaves the other one as it is. -/
def merge? : (base overlay : Option Descriptor) → Option Descriptor
  | some base, some overlay => some (base.merge overlay)
  | some base, none => some base
  | none, overlay => overlay

def mergeAll? (descriptors : List Descriptor) : Option Descriptor :=
  descriptors.foldl (fun merged d => merge? merged (some d)) none

end Descriptor

end Devcontainer
