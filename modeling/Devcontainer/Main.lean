import Devcontainer.CommandLine.Run

/-!
# The program

Reads the environment and the files that a run may look at, runs, and prints.
-/

namespace Devcontainer.Program

def entryAt (path : String) : IO (Option Entry) := do
  if ← (← IO.FS.realPath path).isDir then return some .directory
  try return some (.ofBytes (← IO.FS.readBinFile path))
  catch _ => return none

/-- Adds what stands at a path and above it. A link is kept as one to its end. -/
partial def addPlaces (files : FileTree) (place : List String) :
    (parts : List String) → IO FileTree
  | [] => return files
  | part :: parts => do
    if part == "" || part == "." then
      addPlaces files place parts
    else if part == ".." then
      addPlaces files place.dropLast parts
    else
      let next := place ++ [part]
      let path := Path.ofNames next
      let real ← try pure (← IO.FS.realPath path).toString catch _ => pure path
      if real == path then
        match ← entryAt path with
        | some entry => addPlaces (files.set next entry) next parts
        | none => return files
      else
        let names := (Path.parts real).filter (· != "")
        let files ← addPlaces files [] names
        addPlaces (files.set next (.link real)) names parts

partial def addDocuments (cwd : String) (visited : List (List String)) (files : FileTree)
    (path : String) : IO FileTree := do
  let files ← addPlaces files [] (Path.parts (Path.join cwd path))
  match files.resolve? cwd path with
  | none => return files
  | some names =>
    if names ∈ visited then return files
    match (Ancestry.readPlace files path names).toOption.bind Ancestry.reference? with
    | none => return files
    | some reference =>
      addDocuments cwd (names :: visited) files
        (Ancestry.pathOf reference (Path.ofNames names.dropLast))

def pathsOf (cwd : String) (request : CommandLine.Request) : List String :=
  match request.config with
  | some path => [path]
  | none => Workspace.candidates.map (Path.join (request.workspaceFolder.getD cwd))

def environment : IO (List String) := do
  let bytes ← try IO.FS.readBinFile "/proc/self/environ" catch _ => pure .empty
  match String.fromUTF8? bytes with
  | some text => return (Text.splitOn '\x00' text.toList).map String.ofList
  | none => return []

end Devcontainer.Program

open Devcontainer in
def main (args : List String) : IO UInt32 := do
  let cwd := (← IO.currentDir).toString
  let files ← match CommandLine.parse args with
    | .done request =>
      (Program.pathsOf cwd request).foldlM (Program.addDocuments cwd []) FileTree.empty
    | _ => pure .empty
  match CommandLine.run ⟨← Program.environment, cwd, files⟩ args with
  | .printed text =>
    IO.print text
    return 0
  | .failed report =>
    IO.eprintln report
    return 1
  | .usage =>
    IO.eprintln "error: the arguments do not fit; try --help"
    return 2
