import Devcontainer.Text.Basic

/-!
# Paths

A path is its text. Joining never looks at the file system and never tidies up: only the last
component is found without regard to slashes and single dots at the end.
-/

namespace Devcontainer.Path

open Text

def isAbsolute (path : String) : Bool :=
  ['/'].isPrefixOf path.toList

/-- Puts `path` below `dir`. An absolute path stands for itself; a slash is put between the two
unless `dir` is empty or ends with one. -/
def join (dir path : String) : String :=
  if isAbsolute path then path
  else if dir.isEmpty || ['/'].isSuffixOf dir.toList then dir ++ path
  else dir ++ "/" ++ path

def parts (path : String) : List String :=
  (splitOn '/' path.toList).map String.ofList

/-- The last component; a path that ends in `..` or has no component has none. -/
def lastName? (path : String) : Option String :=
  ((parts path).filter fun part => part != "" && part != ".").getLast?.filter (· != "..")

def basename (path : String) : String :=
  (lastName? path).getD ""

def ofNames (names : List String) : String :=
  "/" ++ String.intercalate "/" names

end Devcontainer.Path
