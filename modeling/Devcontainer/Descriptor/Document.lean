import Devcontainer.Descriptor.Basic
import Devcontainer.Descriptor.Record
import Devcontainer.Document.Reader

/-!
# Descriptors as documents

The keys of a descriptor and of the records in it, and the reading and writing of descriptors by
these tables.
-/

namespace Devcontainer

namespace Codec

def texts : Codec (List String) := list string

def oneOrManyTexts : Codec OneOrMany where
  read v :=
    match v, texts.read v with
    | .string s, _ => .ok (.one s)
    | _, .ok ss => .ok (.many ss)
    | _, .error _ => .error (.noAlternative .oneOrMany)
  write
    | .one s => .string s
    | .many ss => texts.write ss

def command : Codec Command where
  read v := (Command.ofJson v).mapError .command
  write := Command.toJson

def port : Codec Port where
  read
    | .number (.int n) =>
      if 0 ≤ n ∧ n < UInt16.size then .ok (.number n.toNat.toUInt16) else .error (.noAlternative .port)
    | .string s => .ok (.text s)
    | _ => .error (.noAlternative .port)
  write
    | .number n => .number (.int n.toNat)
    | .text s => .string s

def amount : Codec Amount where
  read
    | .number (.int n) =>
      match Binary64.ofInt? n with
      | some x => .ok (.number x)
      | none => .error (.noAlternative .amount)
    | .number (.float x) => .ok (.number x)
    | .string s => .ok (.text s)
    | _ => .error (.noAlternative .amount)
  write := Amount.toJson

end Codec

namespace Mount.Fields

def empty : Fields := ⟨none, none, none, none⟩

/-- A structured mount keeps no other keys. -/
def record : Record Fields where
  empty := empty
  fields := [
    .optional "type" .string (·.kind) fun s f => { f with kind := some s },
    .optional "source" .string (·.source) fun s f => { f with source := some s },
    .optional "target" .string (·.target) fun s f => { f with target := some s },
    (.optional "readOnly" .bool (·.readOnly) fun b f => { f with readOnly := some b } :
      Field Fields).withAlias "readonly"]
  other _ := .empty
  setOther _ f := f

/-- The four values in the order of the keys; values at the end may be left out. -/
def ofItems? : List Json → Option Fields
  | items =>
    if 4 < items.length then none
    else
      (record.read (["type", "source", "target", "readOnly"].zip items)).toOption

end Mount.Fields

def Codec.mount : Codec Mount.Spec where
  read
    | .string s => .ok (.text s)
    | .object members => ((Mount.Fields.record.read members).map Mount.Spec.fields).mapError
        fun _ => .noAlternative .mount
    | .array items =>
      match Mount.Fields.ofItems? items with
      | some f => .ok (.fields f)
      | none => .error (.noAlternative .mount)
    | _ => .error (.noAlternative .mount)
  write := Mount.Spec.toJson

namespace Build

def empty : Build := ⟨none, none, .empty, none, none, .empty⟩

/-- The arguments must be a map: null does not stand for an empty one. -/
def argsField : Field Build where
  key := "args"
  alias? := none
  read v := ((Codec.map .string).read v).map fun args b => { b with args }
  write b := if b.args.isEmpty then none else some ((Codec.map .string).write b.args)

def record : Record Build where
  empty := empty
  fields := [
    (.optional "dockerfile" .string (·.dockerfile) fun s b => { b with dockerfile := some s } :
      Field Build).withAlias "dockerFile",
    .optional "context" .string (·.context) fun s b => { b with context := some s },
    argsField,
    .optional "target" .string (·.target) fun s b => { b with target := some s },
    .optional "cacheFrom" .oneOrManyTexts (·.cacheFrom) fun c b => { b with cacheFrom := some c }]
  other b := b.other
  setOther other b := { b with other }

end Build

namespace HostRequirements

def empty : HostRequirements := ⟨none, none, none, none, .empty⟩

def record : Record HostRequirements where
  empty := empty
  fields := [
    .optional "cpus" .amount (·.cpus) fun a h => { h with cpus := some a },
    .optional "memory" .amount (·.memory) fun a h => { h with memory := some a },
    .optional "storage" .amount (·.storage) fun a h => { h with storage := some a },
    .optional "gpu" .json (·.gpu) fun v h => { h with gpu := some v }]
  other h := h.other
  setOther other h := { h with other }

def codec : Codec HostRequirements := record.codec .hostRequirements

end HostRequirements

namespace Descriptor

/-- A descriptor together with the keys by which a document selects the container. -/
structure Draft extends Descriptor where
  image : Option String
  dockerFile : Option String
  composeFiles : Option (List String)
deriving DecidableEq

namespace Draft

def empty : Draft := { Descriptor.empty with image := none, dockerFile := none, composeFiles := none }

def hookField (hook : Hook) : Field Draft :=
  .optional hook.key .command (·.hooks.get hook)
    fun c d => { d with hooks := d.hooks.set hook (some c) }

def fields : List (Field Draft) := [
  .optional "extends" .string (·.ancestor) fun s d => { d with ancestor := some s },
  .optional "name" .string (·.name) fun s d => { d with name := some s },
  .optional "image" .string (·.image) fun s d => { d with image := some s },
  .optional "dockerFile" .string (·.dockerFile) fun s d => { d with dockerFile := some s },
  .optional "build" (Build.record.codec .build) (·.build) fun b d => { d with build := some b },
  .optional "dockerComposeFile" (.oneOrMany .string) (·.composeFiles)
    fun ss d => { d with composeFiles := some ss },
  .optional "service" .string (·.service) fun s d => { d with service := some s },
  .omitted "runServices" .texts List.isEmpty (·.runServices)
    fun ss d => { d with runServices := ss },
  .optional "workspaceFolder" .string (·.workspaceFolder)
    fun s d => { d with workspaceFolder := some s },
  .optional "workspaceMount" .string (·.workspaceMount)
    fun s d => { d with workspaceMount := some s },
  .omitted "containerEnv" (.map .string) OrderedMap.isEmpty (·.containerEnv)
    fun m d => { d with containerEnv := m },
  .omitted "remoteEnv" (.map (.nullable .string)) OrderedMap.isEmpty (·.remoteEnv)
    fun m d => { d with remoteEnv := m },
  .optional "containerUser" .string (·.containerUser) fun s d => { d with containerUser := some s },
  .optional "remoteUser" .string (·.remoteUser) fun s d => { d with remoteUser := some s },
  .omitted "forwardPorts" (.list .port) List.isEmpty (·.forwardPorts)
    fun ps d => { d with forwardPorts := ps },
  .omitted "appPort" (.oneOrMany .port) List.isEmpty (·.appPorts)
    fun ps d => { d with appPorts := ps },
  .optional "runArgs" .texts (·.runArgs) fun ss d => { d with runArgs := some ss },
  hookField .onInitialize,
  hookField .onCreate,
  hookField .onUpdateContent,
  hookField .postCreate,
  hookField .postStart,
  hookField .postAttach,
  .omitted "mounts" (.list .mount) List.isEmpty (·.mounts) fun ms d => { d with mounts := ms },
  .omitted "capAdd" .texts List.isEmpty (·.capAdd) fun ss d => { d with capAdd := ss },
  .omitted "securityOpt" .texts List.isEmpty (·.securityOpt)
    fun ss d => { d with securityOpt := ss },
  .optional "init" .bool (·.init) fun b d => { d with init := some b },
  .optional "privileged" .bool (·.privileged) fun b d => { d with privileged := some b },
  .omitted "features" (.map .json) OrderedMap.isEmpty (·.features)
    fun m d => { d with features := m },
  .optional "customizations" .json (·.customizations)
    fun v d => { d with customizations := some v },
  .optional "hostRequirements" HostRequirements.codec (·.hostRequirements)
    fun h d => { d with hostRequirements := some h }]

def record : Record Draft where
  empty := empty
  fields := fields
  other d := d.other
  setOther other d := { d with other }

/-- The selectors that the keys name; the key for a Dockerfile goes before the build's own. -/
def selectors (d : Draft) : List Selector :=
  (d.image.map Selector.image).toList
    ++ ((d.dockerFile.or (d.build.bind (·.dockerfile))).map Selector.dockerfile).toList
    ++ (d.composeFiles.map Selector.compose).toList

/-- The keys that select a container. A Dockerfile that the build names itself needs no other key. -/
def ofDescriptor (d : Descriptor) : Draft :=
  match d.selector with
  | some (.image reference) =>
    { d with image := some reference, dockerFile := none, composeFiles := none }
  | some (.dockerfile path) =>
    if d.build.bind (·.dockerfile) = some path then
      { d with image := none, dockerFile := none, composeFiles := none }
    else { d with image := none, dockerFile := some path, composeFiles := none }
  | some (.compose files) =>
    { d with image := none, dockerFile := none, composeFiles := some files }
  | none => { d with image := none, dockerFile := none, composeFiles := none }

end Draft

inductive Invalid where
  | malformed
  | field (fault : Fault)
  | notObject
  | manySelectors (kinds : List Selector.Kind)
deriving DecidableEq

/-- At most one key may select the container. -/
def ofDraft (d : Draft) : Except Invalid Descriptor :=
  match d.selectors with
  | [] => .ok { d.toDescriptor with selector := none }
  | [selector] => .ok { d.toDescriptor with selector := some selector }
  | selectors => .error (.manySelectors (selectors.map Selector.kind))

def ofJson : Json → Except Invalid Descriptor
  | .object members =>
    match Draft.record.read members with
    | .error fault => .error (.field fault)
    | .ok draft => ofDraft draft
  | _ => .error .notObject

def toJson (d : Descriptor) : Json :=
  .object (Draft.record.write (Draft.ofDescriptor d))

def read (text : String) : Except Invalid Descriptor :=
  match Document.read? text with
  | some v => ofJson v
  | none => .error .malformed

end Descriptor

end Devcontainer
