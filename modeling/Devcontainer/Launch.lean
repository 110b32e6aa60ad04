import Devcontainer.Descriptor.Expand

/-!
# Launches

What is needed to start one container from an image, and the argument vector that starts it.
-/

namespace Devcontainer

structure Launch where
  image : String
  workspaceFolder : String
  workspaceMount : String
  environment : SortedMap String
  ports : List String
  mounts : List String
  capAdd : List String
  securityOpt : List String
  init : Bool
  privileged : Bool
  user : Option String
  name : Option String
  runArgs : List String
  command : List String
deriving DecidableEq, Repr, Inhabited

namespace Launch

structure Options where
  /-- The absolute path of the workspace on the host. -/
  root : String
  /-- Mounts that take the place of declared ones with the same target. -/
  mounts : List Mount
  /-- Ports besides those of the descriptor. -/
  ports : List Port
  /-- The command to run in the container. -/
  command : List String
deriving DecidableEq, Repr

def imageOf (d : Descriptor) : Except PlanError String :=
  match d.selector with
  | some (.image reference) => if reference.isEmpty then .error .noImage else .ok reference
  | none => .error .noImage
  | some selector => .error (.unsupportedSelector selector.kind)

def folderOf (o : Options) (d : Descriptor) : String :=
  d.folder?.getD (Context.defaultFolder o.root)

/-- The mount of the workspace: the host's directory in the workspace folder, unless the descriptor
says otherwise. -/
def workspaceMountOf (o : Options) (d : Descriptor) : String :=
  (d.workspaceMount.filter (!·.isEmpty)).getD
    ("type=bind,source=" ++ o.root ++ ",target=" ++ folderOf o d)

def portsOf (o : Options) (d : Descriptor) : List String :=
  Port.collect d.appPorts (if d.usesCompose then [] else o.ports) d.forwardPorts

/-- The declared mounts, up to the first that means nothing. -/
def declaredMounts : List Mount.Spec → Except PlanError (List Mount)
  | [] => .ok []
  | spec :: specs =>
    match spec.resolve with
    | .error e => .error e
    | .ok mount => (declaredMounts specs).map (mount :: ·)

def ofDescriptor (o : Options) (d : Descriptor) : Except PlanError Launch :=
  match imageOf d with
  | .error e => .error e
  | .ok image =>
    match declaredMounts d.mounts with
    | .error e => .error e
    | .ok declared =>
      .ok {
        image
        workspaceFolder := folderOf o d
        workspaceMount := workspaceMountOf o d
        environment := .ofList d.containerEnv.entries
        ports := portsOf o d
        mounts := (Mount.inject declared o.mounts).map Mount.canonical
        capAdd := d.capAdd
        securityOpt := d.securityOpt
        init := d.init.getD false
        privileged := d.privileged.getD false
        user := d.containerUser.filter (!·.isEmpty)
        name := d.name.filter (!·.isEmpty)
        runArgs := d.runArgs.getD []
        command := o.command }

/-- Whether one of the options of a mount's text starts as `key` does. -/
def hasOption (key : String) (mount : String) : Bool :=
  (Text.splitOn ',' mount.toList).any fun part => key.toList.isPrefixOf (Text.trim part)

def checkMount (mount : String) : Except PlanError Unit :=
  if !hasOption "type=" mount then .error (.invalidMount mount .missingKind)
  else if !hasOption "target=" mount then .error (.invalidMount mount .missingTarget)
  else .ok ()

def checkAll {α : Type} (check : α → Except PlanError Unit) : List α → Except PlanError Unit
  | [] => .ok ()
  | a :: rest =>
    match check a with
    | .error e => .error e
    | .ok () => checkAll check rest

def check (l : Launch) : Except PlanError Unit :=
  if l.image.isEmpty then .error .noImage
  else
    match checkAll checkMount l.mounts with
    | .error e => .error e
    | .ok () => checkAll Port.check l.ports

def flagged (flag : String) (values : List String) : List String :=
  values.flatMap fun value => [flag, value]

def mountsWorkspace (l : Launch) : Bool :=
  l.workspaceMount != "" && l.workspaceMount != "none"

/-- The argument vector. Everything before the image is flags and their values, the descriptor's own
run arguments in the middle. -/
def arguments (l : Launch) : List String :=
  ["run", "--rm", "-it"]
    ++ flagged "--name" l.name.toList
    ++ (if l.mountsWorkspace then ["--mount", l.workspaceMount] else [])
    ++ ["-w", l.workspaceFolder]
    ++ flagged "-e" (l.environment.entries.map fun (key, value) => key ++ "=" ++ value)
    ++ flagged "-p" l.ports
    ++ l.runArgs
    ++ flagged "--mount" l.mounts
    ++ flagged "--cap-add" l.capAdd
    ++ flagged "--security-opt" l.securityOpt
    ++ (if l.init then ["--init"] else [])
    ++ (if l.privileged then ["--privileged"] else [])
    ++ flagged "-u" l.user.toList
    ++ [l.image]
    ++ l.command

def checkedArguments (l : Launch) : Except PlanError (List String) :=
  l.check.map fun () => l.arguments

def toJson (l : Launch) : Json :=
  let texts (ss : List String) : Json := .array (ss.map .string)
  .object <|
    [("image", .string l.image),
      ("workspaceFolder", .string l.workspaceFolder),
      ("workspaceMount", .string l.workspaceMount),
      ("environment", .object (l.environment.entries.map fun (key, value) => (key, .string value))),
      ("ports", texts l.ports),
      ("mounts", texts l.mounts),
      ("capAdd", texts l.capAdd),
      ("securityOpt", texts l.securityOpt),
      ("init", .bool l.init),
      ("privileged", .bool l.privileged)]
      ++ (l.user.map fun user => ("user", Json.string user)).toList
      ++ (l.name.map fun name => ("name", Json.string name)).toList
      ++ [("runArgs", texts l.runArgs), ("command", texts l.command)]

/-- The checked launch of a descriptor: its templates are expanded, then its requirements are
checked, then the launch is made and checked. -/
def plan (c : Context) (o : Options) (d : Descriptor) : Except Error Launch :=
  match d.expandInPlace c with
  | .error e => .error (.plan e)
  | .ok (expanded, _) =>
    match expanded.hostRequirements.bind HostRequirements.badCpus? with
    | some amount => .error (.load (.badCpus amount))
    | none =>
      match ofDescriptor o expanded with
      | .error e => .error (.plan e)
      | .ok launch =>
        match launch.check with
        | .error e => .error (.plan e)
        | .ok () => .ok launch

end Launch

end Devcontainer
