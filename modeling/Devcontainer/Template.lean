import Devcontainer.Path
import Devcontainer.SortedMap
import Devcontainer.Text.Basic

/-!
# Templates

Strings of a descriptor may refer to the workspace and to the environment of the host. Names of the
workspace are replaced first, the longest name first, with or without braces. What then stands in
the text is scanned once for references to the environment; what a reference puts in is not scanned
again.
-/

namespace Devcontainer

open Text

structure Context where
  localFolder : String
  localBasename : String
  containerFolder : String
  containerBasename : String
  /-- The environment of the host. -/
  env : String → Option String

namespace Context

def workspaces : String := "/workspaces"

def defaultFolder (root : String) : String :=
  workspaces ++ "/" ++ Path.basename root

def ofRoot (root : String) (env : String → Option String) : Context where
  localFolder := root
  localBasename := Path.basename root
  containerFolder := defaultFolder root
  containerBasename := Path.basename root
  env

def withContainerFolder (c : Context) (folder : String) : Context :=
  { c with containerFolder := folder, containerBasename := Path.basename folder }

/-- The names of the workspace with their values, a name before every name that it starts with. -/
def wellKnown (c : Context) : List (String × String) :=
  [("containerWorkspaceFolderBasename", c.containerBasename),
    ("localWorkspaceFolderBasename", c.localBasename),
    ("containerWorkspaceFolder", c.containerFolder),
    ("localWorkspaceFolder", c.localFolder)]

end Context

namespace Template

def braced (name : String) : List Char :=
  '$' :: '\x7b' :: (name.toList ++ ['\x7d'])

def bare (name : String) : List Char :=
  '$' :: name.toList

structure Token where
  written : List Char
  name : String
  value : String
deriving DecidableEq, Repr

def tokens (c : Context) : List Token :=
  c.wellKnown.flatMap fun (name, value) => [⟨braced name, name, value⟩, ⟨bare name, name, value⟩]

def replaceTokens : List Token → List Char → List Char
  | [], text => text
  | t :: ts, text => replaceTokens ts (replaceAll t.written t.value.toList text)

/-- The tokens that `replaceTokens` finds. -/
def foundTokens : List Token → List Char → List Token
  | [], _ => []
  | t :: ts, text =>
    let rest := foundTokens ts (replaceAll t.written t.value.toList text)
    if occurs t.written text then t :: rest else rest

structure Reference where
  name : List Char
  default? : Option (List Char)
deriving DecidableEq, Repr

def opening : List Char := "$\x7blocalEnv:".toList

/-- The reference at the head of a text, with its width. The name is not empty and runs up to the
next colon or closing brace, a default up to the next closing brace. -/
def referenceAt (text : List Char) : Option (Reference × Nat) :=
  if opening.isPrefixOf text then
    let rest := text.drop opening.length
    let name := rest.takeWhile fun c => c != '\x7d' && c != ':'
    if name.isEmpty then none
    else
      match rest.drop name.length with
      | '\x7d' :: _ => some (⟨name, none⟩, opening.length + name.length + 1)
      | ':' :: after =>
        let value := after.takeWhile (· != '\x7d')
        match after.drop value.length with
        | '\x7d' :: _ =>
          some (⟨name, some value⟩, opening.length + name.length + value.length + 2)
        | _ => none
      | _ => none
  else none

def Reference.written (r : Reference) : List Char :=
  opening ++ r.name ++ (match r.default? with | some d => ':' :: d | none => []) ++ ['\x7d']

inductive Piece where
  | char (c : Char)
  | reference (r : Reference)
deriving DecidableEq, Repr

def pieceAt (text : List Char) : Piece × Nat :=
  match referenceAt text with
  | some (r, width) => (.reference r, width)
  | none => (.char (text.headD ' '), 1)

def pieces (text : List Char) : List Piece :=
  scan pieceAt text

/-- The value of a reference: that of the host, when it is set and not empty, else the default, when
it is not empty. -/
def Reference.value? (env : String → Option String) (r : Reference) : Option (List Char) :=
  match (env (String.ofList r.name)).filter (!·.isEmpty) with
  | some value => some value.toList
  | none => r.default?.filter (!·.isEmpty)

namespace Piece

/-- What stands for a piece; a reference without a value stays as it is. -/
def text (env : String → Option String) : Piece → List Char
  | .char c => [c]
  | .reference r => (r.value? env).getD r.written

def replacement? (env : String → Option String) : Piece → Option (String × String)
  | .char _ => none
  | .reference r =>
    (r.value? env).map fun value => ("localEnv:" ++ String.ofList r.name, String.ofList value)

def missing? (env : String → Option String) : Piece → Option String
  | .char _ => none
  | .reference r => if (r.value? env).isNone then some (String.ofList r.name) else none

end Piece

end Template

structure Expansion where
  text : String
  /-- Names with the values put in their place, in order. -/
  replacements : List (String × String)
  /-- Variables of the host without a value, in order. -/
  missing : List String
deriving DecidableEq, Repr

namespace Template

def expand (c : Context) (template : String) : Expansion :=
  let template := template.toList
  let ps := pieces (replaceTokens (tokens c) template)
  { text := String.ofList (ps.flatMap (·.text c.env))
    replacements := (foundTokens (tokens c) template).map (fun t => (t.name, t.value))
      ++ ps.filterMap (·.replacement? c.env)
    missing := ps.filterMap (·.missing? c.env) }

end Template

/-- What has been put in by a number of expansions, by name, and what was missing, each name once. -/
structure Report where
  replacements : SortedMap String
  missing : List String
deriving DecidableEq, Repr, Inhabited

namespace Report

def empty : Report := ⟨.empty, []⟩

def addMissing (names : List String) (name : String) : List String :=
  if name ∈ names then names else names ++ [name]

def add (r : Report) (e : Expansion) : Report where
  replacements := r.replacements.insertAll e.replacements
  missing := e.missing.foldl addMissing r.missing

def ofTemplates (c : Context) (templates : List String) : Report :=
  templates.foldl (fun r template => r.add (Template.expand c template)) empty

end Report

/-- Expands a template and adds what it comes to to the report at hand. -/
def Template.substitute (c : Context) (template : String) : StateM Report String :=
  modifyGet fun r =>
    let e := Template.expand c template
    (e.text, r.add e)

end Devcontainer
