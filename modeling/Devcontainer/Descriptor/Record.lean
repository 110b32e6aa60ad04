import Devcontainer.Command
import Devcontainer.Json.Printer
import Devcontainer.Text.Quoted

/-!
# Records in a document

A record is an object whose keys have meanings. One table lists, key by key, how a value is read and
how it is written, and both directions go by that table: reading in the order of the document,
writing in the order of the table. Keys that the table does not list are kept.
-/

namespace Devcontainer

inductive Expected where
  | string | bool | list | map | build | hostRequirements
deriving DecidableEq, Repr

inductive Alternatives where
  | oneOrMany | port | mount | amount
deriving DecidableEq, Repr

inductive Fault where
  | wrongType (found : Json) (expected : Expected)
  | noAlternative (expected : Alternatives)
  | writtenTwice (key : String)
  | command (cause : Command.Fault)
deriving DecidableEq

def Expected.name : Expected → String
  | .string => "a string"
  | .bool => "a boolean"
  | .list => "a sequence"
  | .map => "a map"
  | .build => "struct BuildOptions"
  | .hostRequirements => "struct HostRequirements"

def Alternatives.name : Alternatives → String
  | .oneOrMany => "OneOrMany"
  | .port => "PortSpec"
  | .mount => "MountSpec"
  | .amount => "ResourceSpec"

def marked (s : String) : String := "\x60" ++ s ++ "\x60"

def Json.describe : Json → String
  | .null => "null"
  | .bool b => "boolean " ++ marked (if b then "true" else "false")
  | .number (.int n) => "integer " ++ marked (toString n)
  | .number (.float x) => "floating point " ++ marked (Json.compact (.number (.float x)))
  | .string s => "string " ++ Text.quoted s
  | .array _ => "sequence"
  | .object _ => "map"

def Fault.message : Fault → String
  | .wrongType found expected =>
    "invalid type: " ++ found.describe ++ ", expected " ++ expected.name
  | .noAlternative expected =>
    "data did not match any variant of untagged enum " ++ expected.name
  | .writtenTwice key => "duplicate field " ++ marked key
  | .command cause => cause.message

structure Codec (α : Type) where
  read : Json → Except Fault α
  write : α → Json

/-- A key of a record. Reading answers the change that the value makes to the record; writing answers
nothing when the key is to be left out. -/
structure Field (R : Type) where
  key : String
  /-- Another spelling of the key, accepted when reading. -/
  alias? : Option String
  read : Json → Except Fault (R → R)
  write : R → Option Json

namespace Field

variable {R α : Type}

/-- A key that may be left out; null means the same. -/
def optional (key : String) (codec : Codec α) (get : R → Option α) (set : α → R → R) : Field R where
  key
  alias? := none
  read
    | .null => .ok id
    | v => (codec.read v).map set
  write r := (get r).map codec.write

/-- A list or map that is left out when it is empty; null means the same. -/
def omitted (key : String) (codec : Codec α) (isEmpty : α → Bool) (get : R → α)
    (set : α → R → R) : Field R :=
  optional key codec (fun r => if isEmpty (get r) then none else some (get r)) set

def withAlias (f : Field R) (key : String) : Field R :=
  { f with alias? := some key }

def answersTo (f : Field R) (key : String) : Bool :=
  f.key == key || f.alias? == some key

end Field

structure Record (R : Type) where
  empty : R
  fields : List (Field R)
  other : R → OrderedMap Json
  setOther : OrderedMap Json → R → R

namespace Record

variable {R : Type}

def field? (record : Record R) (key : String) : Option (Field R) :=
  record.fields.find? (·.answersTo key)

/-- Reads the members one after another, and stops at the first one at fault. A key and its alias are
one key; `seen` holds those that have been read. -/
def readMembers (record : Record R) :
    (seen : List String) → List (String × Json) → R → Except Fault R
  | _, [], r => .ok r
  | seen, (key, v) :: members, r =>
    match record.field? key with
    | none => readMembers record seen members (record.setOther ((record.other r).insert key v) r)
    | some field =>
      if field.key ∈ seen then .error (.writtenTwice field.key)
      else
        match field.read v with
        | .error fault => .error fault
        | .ok set => readMembers record (field.key :: seen) members (set r)

def read (record : Record R) (members : List (String × Json)) : Except Fault R :=
  record.readMembers [] members record.empty

def write (record : Record R) (r : R) : List (String × Json) :=
  record.fields.filterMap (fun f => (f.write r).map (f.key, ·)) ++ (record.other r).entries

def codec (record : Record R) (expected : Expected) : Codec R where
  read
    | .object members => record.read members
    | v => .error (.wrongType v expected)
  write r := .object (record.write r)

end Record

namespace Codec

variable {α : Type}

def json : Codec Json where
  read v := .ok v
  write v := v

def string : Codec String where
  read
    | .string s => .ok s
    | v => .error (.wrongType v .string)
  write := .string

def bool : Codec Bool where
  read
    | .bool b => .ok b
    | v => .error (.wrongType v .bool)
  write := .bool

def nullable (codec : Codec α) : Codec (Option α) where
  read
    | .null => .ok none
    | v => (codec.read v).map some
  write
    | none => .null
    | some a => codec.write a

def readItems (codec : Codec α) : List Json → Except Fault (List α)
  | [] => .ok []
  | v :: items =>
    match codec.read v with
    | .error fault => .error fault
    | .ok a => (readItems codec items).map (a :: ·)

def list (codec : Codec α) : Codec (List α) where
  read
    | .array items => readItems codec items
    | v => .error (.wrongType v .list)
  write items := .array (items.map codec.write)

def readValues (codec : Codec α) : List (String × Json) → Except Fault (List (String × α))
  | [] => .ok []
  | (key, v) :: members =>
    match codec.read v with
    | .error fault => .error fault
    | .ok a => (readValues codec members).map ((key, a) :: ·)

def map (codec : Codec α) : Codec (OrderedMap α) where
  read
    | .object members => (readValues codec members).map OrderedMap.ofList
    | v => .error (.wrongType v .map)
  write m := .object (m.entries.map fun (key, a) => (key, codec.write a))

/-- One value, or a list of them; a list is written. -/
def oneOrMany (codec : Codec α) : Codec (List α) where
  read v :=
    match codec.read v with
    | .ok a => .ok [a]
    | .error _ =>
      match (list codec).read v with
      | .ok items => .ok items
      | .error _ => .error (.noAlternative .oneOrMany)
  write := (list codec).write

end Codec

end Devcontainer
