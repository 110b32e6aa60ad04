/-!
# Words of a shell line

A word that the shell would take apart is put between single quotes; a single quote inside it is
written between two quoted runs.
-/

namespace Devcontainer.Shell

def isSpecial (c : Char) : Bool :=
  ['|', '&', ';', '<', '>', '(', ')', '$', '\x60', '\\', '"', ' ', '\t', '\n', '\'', '*', '?',
    '[', '#', '~', '=', '%'].contains c

def escape (c : Char) : List Char :=
  if c = '\'' then ['\'', '\\', '\'', '\''] else [c]

def quote (word : List Char) : List Char :=
  if word.isEmpty || word.any isSpecial then '\'' :: (word.flatMap escape ++ ['\''])
  else word

/-- One line whose words are those of the list. -/
def line (words : List String) : String :=
  String.ofList (List.intercalate [' '] (words.map fun w => quote w.toList))

end Devcontainer.Shell
