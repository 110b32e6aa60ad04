import Devcontainer.Error
import Devcontainer.Template

/-!
# Expanding a descriptor

The templates of a descriptor are expanded one after another, and one report goes with them from the
first to the last. Only when all have been expanded does a variable without a value, anywhere, make
the whole expansion fail.
-/

namespace Devcontainer.Descriptor

/-- The templates of a descriptor, in the order in which reports name them. -/
def templates (d : Descriptor) : List String :=
  d.workspaceFolder.toList ++ d.workspaceMount.toList ++ d.containerEnv.values
    ++ d.remoteEnv.values.filterMap id ++ d.mounts.flatMap Mount.Spec.strings ++ d.hooks.strings
    ++ d.runArgs.getD []

def mapTemplates (f : String → String) (d : Descriptor) : Descriptor :=
  { d with
    workspaceFolder := d.workspaceFolder.map f
    workspaceMount := d.workspaceMount.map f
    containerEnv := d.containerEnv.map f
    remoteEnv := d.remoteEnv.map (Option.map f)
    mounts := d.mounts.map (·.map f)
    hooks := d.hooks.map f
    runArgs := d.runArgs.map (·.map f) }

def mapTemplatesM {m : Type → Type} [Monad m] (f : String → m String) (d : Descriptor) :
    m Descriptor := do
  let workspaceFolder ← d.workspaceFolder.mapM f
  let workspaceMount ← d.workspaceMount.mapM f
  let containerEnv ← d.containerEnv.mapM f
  let remoteEnv ← d.remoteEnv.mapM (Option.mapM f)
  let mounts ← d.mounts.mapM (Mount.Spec.mapM f)
  let hooks ← d.hooks.mapM f
  let runArgs ← d.runArgs.mapM (List.mapM f)
  return { d with
    workspaceFolder, workspaceMount, containerEnv, remoteEnv, mounts, hooks, runArgs }

def expand (c : Context) (d : Descriptor) : Except PlanError (Descriptor × Report) :=
  let (expanded, report) := (d.mapTemplatesM (Template.substitute c)).run .empty
  if report.missing.isEmpty then .ok (expanded, report)
  else .error (.unresolved report.missing)

def folder? (d : Descriptor) : Option String :=
  d.workspaceFolder.filter (!·.isEmpty)

/-- Expands the workspace folder first: its expansion is the container folder that all templates see,
and it is expanded with them once more. What that first expansion put in is reported last. -/
def expandInPlace (c : Context) (d : Descriptor) : Except PlanError (Descriptor × Report) :=
  match d.folder? with
  | none => d.expand c
  | some folder =>
    let first := Template.expand c folder
    match { d with workspaceFolder := some first.text }.expand (c.withContainerFolder first.text) with
    | .error e => .error e
    | .ok (expanded, report) =>
      .ok (expanded, { report with
        replacements :=
          report.replacements.insertAll (Report.empty.add first).replacements.entries })

end Devcontainer.Descriptor
