import Devcontainer.Path

/-!
# Trees of files

A tree of files is a list of what stands at the absolute paths, a path being the names that lead to
it from the root. The root itself is a directory. Paths are followed as a system does it: links are
replaced by what they point to, `..` leads to the parent of where the path has come to, and only a
directory has anything below it.
-/

namespace Devcontainer

inductive Entry where
  /-- A file with its text; bytes that are no text have none. -/
  | file (text : Option String)
  | directory
  | link (target : String)
deriving DecidableEq, Repr

def Entry.ofBytes (bytes : ByteArray) : Entry :=
  .file (String.fromUTF8? bytes)

inductive ReadFault where
  | isDirectory
  | notText
deriving DecidableEq, Repr

def ReadFault.message : ReadFault → String
  | .isDirectory => "Is a directory (os error 21)"
  | .notText => "stream did not contain valid UTF-8"

structure FileTree where
  entries : List (List String × Entry)
deriving DecidableEq, Repr

namespace FileTree

def empty : FileTree := ⟨[]⟩

def get? (t : FileTree) (names : List String) : Option Entry :=
  if names.isEmpty then some .directory else t.entries.lookup names

def isDirectory (t : FileTree) (names : List String) : Bool :=
  t.get? names == some .directory

/-- The number of links that may be followed on the way along one path. -/
def linkLimit : Nat := 40

/-- Where the parts of a path lead to from a place in the tree. Behind a link `jump` takes over, from
the place where the link's own path starts. -/
def walk (t : FileTree) (jump : List String → List String → Option (List String))
    (here : List String) : List String → Option (List String)
  | [] => some here
  | part :: parts =>
    if !t.isDirectory here then none
    else if part = "" ∨ part = "." then walk t jump here parts
    else if part = ".." then walk t jump here.dropLast parts
    else
      match t.get? (here ++ [part]) with
      | none => none
      | some (.link target) =>
        jump (if Path.isAbsolute target then [] else here) (Path.parts target ++ parts)
      | some _ => walk t jump (here ++ [part]) parts

def follow (t : FileTree) : (links : Nat) → (here parts : List String) → Option (List String)
  | 0 => t.walk fun _ _ => none
  | links + 1 => t.walk (t.follow links)

/-- A path of this many bytes, or more, is too long. -/
def lengthLimit : Nat := 4096

/-- The place that a path leads to, without links, when there is something there. Relative paths
start in the directory `cwd`. An empty path and one that is too long lead nowhere. -/
def resolve? (t : FileTree) (cwd path : String) : Option (List String) :=
  if path.isEmpty || lengthLimit ≤ path.utf8ByteSize then none
  else t.follow linkLimit [] (Path.parts (Path.join cwd path))

def isFile (t : FileTree) (cwd path : String) : Bool :=
  match (t.resolve? cwd path).bind t.get? with
  | some (.file _) => true
  | _ => false

def readText (t : FileTree) (names : List String) : Except ReadFault String :=
  match t.get? names with
  | some (.file (some text)) => .ok text
  | some (.file none) => .error .notText
  | _ => .error .isDirectory

/-! ## Changes -/

def set (t : FileTree) (names : List String) (entry : Entry) : FileTree :=
  ⟨(names, entry) :: t.entries.filter (·.1 != names)⟩

def remove (t : FileTree) (names : List String) : FileTree :=
  ⟨t.entries.filter fun (place, _) => !names.isPrefixOf place⟩

def steps (cwd path : String) : List String :=
  (Path.parts (Path.join cwd path)).filter fun part => part != "" && part != "."

/-- Walks on from a place, makes the directories that are missing on the way, and answers where the
steps lead. -/
def makeAlong (t : FileTree) (here : List String) : (steps : List String) → FileTree × List String
  | [] => (t, here)
  | ".." :: steps => t.makeAlong here.dropLast steps
  | name :: steps =>
    let next := here ++ [name]
    match t.get? next with
    | none => (t.set next .directory).makeAlong next steps
    | some (.link _) => t.makeAlong ((t.resolve? "/" (Path.ofNames next)).getD next) steps
    | some _ => t.makeAlong next steps

def makeDirectory (t : FileTree) (cwd path : String) : FileTree :=
  (t.makeAlong [] (steps cwd path)).1

/-- Makes the directories on the way to what a path names, and answers its place. A link at the place
itself is not followed. -/
def makeParents (t : FileTree) (cwd path : String) : FileTree × List String :=
  let steps := steps cwd path
  let (t, here) := t.makeAlong [] steps.dropLast
  (t, here ++ steps.getLast?.toList)

def link (t : FileTree) (cwd path target : String) : FileTree :=
  let (t, names) := t.makeParents cwd path
  t.set names (.link target)

def removeAt (t : FileTree) (cwd path : String) : FileTree :=
  t.remove (t.makeParents cwd path).2

/-- Writes a file where a path leads when at most `links` links at its end are followed. -/
def writeThrough (t : FileTree) (text : Option String) : (links : Nat) → (cwd path : String) → FileTree
  | links, cwd, path =>
    let (t, names) := t.makeParents cwd path
    match links, t.get? names with
    | links + 1, some (.link target) =>
      t.writeThrough text links (Path.ofNames names.dropLast) target
    | _, _ => t.set names (.file text)

def write (t : FileTree) (cwd path : String) (text : Option String) : FileTree :=
  t.writeThrough text linkLimit cwd path

end FileTree

end Devcontainer
