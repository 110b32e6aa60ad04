import Devcontainer.Descriptor.Merge
import Devcontainer.Error

/-!
# Descriptors that build upon others

A descriptor may name an ancestor, which may name one in turn. The documents on the way are told apart
by their places in the tree without links, so a way that comes back to one of them is noticed however
it is spelled.
-/

namespace Devcontainer

def descriptorPath : String := ".devcontainer/devcontainer.json"

namespace Workspace

def candidates : List String :=
  [descriptorPath, ".devcontainer.json", ".devcontainer/.devcontainer.json"]

def discover (t : FileTree) (cwd workspace : String) : Except LoadError String :=
  match (candidates.map (Path.join workspace)).find? (t.isFile cwd) with
  | some path => .ok path
  | none => .error (.notFound (Path.join workspace descriptorPath))

end Workspace

namespace Ancestry

def fileScheme : String := "file://"

/-- The path that a reference means in a document of the directory `dir`: a JSON file, or else a
directory with a descriptor in it. -/
def pathOf (reference dir : String) : String :=
  let chars := reference.toList
  if fileScheme.toList.isPrefixOf chars then
    Path.join (Path.join dir (String.ofList (chars.drop fileScheme.length))) descriptorPath
  else if ".json".toList.isSuffixOf chars || ".jsonc".toList.isSuffixOf chars then
    Path.join dir reference
  else Path.join (Path.join dir reference) descriptorPath

/-- The reference to the ancestor; an empty one is none. -/
def reference? (d : Descriptor) : Option String :=
  d.ancestor.filter (!·.isEmpty)

/-- The descriptor at a place without links; `path` is how messages name it. -/
def readPlace (t : FileTree) (path : String) (names : List String) : Except LoadError Descriptor :=
  match t.readText names with
  | .error fault => .error (.unreadable path fault)
  | .ok text => (Descriptor.read text).mapError (.invalid (some path))

def loadAlone (t : FileTree) (cwd path : String) : Except LoadError Descriptor :=
  match t.resolve? cwd path with
  | none => .error (.notFound path)
  | some names => readPlace t path names

def unvisited (t : FileTree) (visited : List (List String)) : List (List String) :=
  (t.entries.map Prod.fst).filter (· ∉ visited)

theorem mem_of_readPlace {t : FileTree} {path : String} {names : List String} {d : Descriptor}
    (h : readPlace t path names = .ok d) : names ∈ t.entries.map Prod.fst := by
  unfold readPlace FileTree.readText at h
  split at h
  next => simp at h
  next text ht =>
    split at ht
    next text' hg =>
      unfold FileTree.get? at hg
      split at hg
      next => simp at hg
      next =>
        obtain ⟨l₁, l₂, hl, -⟩ := List.lookup_eq_some_iff.1 hg
        exact List.mem_map.2 ⟨(names, .file (some text')), by simp [hl], rfl⟩
    next => simp at ht
    next => simp at ht

theorem length_unvisited_lt {t : FileTree} {visited : List (List String)} {names : List String}
    (hn : names ∈ t.entries.map Prod.fst) (hv : names ∉ visited) :
    (unvisited t (visited ++ [names])).length < (unvisited t visited).length := by
  unfold unvisited
  generalize t.entries.map Prod.fst = places at hn ⊢
  induction places with
  | nil => simp at hn
  | cons p places ih =>
      have hle : (places.filter (· ∉ visited ++ [names])).length
          ≤ (places.filter (· ∉ visited)).length := by
        clear ih hn
        induction places with
        | nil => simp
        | cons q places ih =>
            by_cases hq : q ∈ visited
            · simpa [hq] using ih
            · by_cases hqn : q = names
              · simp [hqn, hv] at ih ⊢; omega
              · simp [hq, hqn] at ih ⊢; omega
      by_cases hp : p = names
      · simp [hp, hv] at hle ⊢; omega
      · have hn' : names ∈ places := by
          rcases List.mem_cons.1 hn with h | h
          · exact absurd h.symm hp
          · exact h
        by_cases hpv : p ∈ visited
        · simpa [hpv] using ih hn'
        · have := ih hn'
          simp [hp, hpv] at this ⊢; omega

/-- The descriptor at a path merged over its ancestors, the farthest of them first. A reference that
has been followed is dropped. `visited` holds the places of the documents on the way to here. -/
def loadFrom (t : FileTree) (cwd : String) (visited : List (List String)) (path : String) :
    Except LoadError Descriptor :=
  match t.resolve? cwd path with
  | none => .error (.notFound path)
  | some names =>
    if _hv : names ∈ visited then .error (.cycle ((visited ++ [names]).map Path.ofNames))
    else
      match _hd : readPlace t (Path.ofNames names) names with
      | .error e => .error e
      | .ok d =>
        match reference? d with
        | none => .ok d
        | some reference =>
          (loadFrom t cwd (visited ++ [names])
            (pathOf reference (Path.ofNames names.dropLast))).map fun base =>
              { base.merge d with ancestor := none }
termination_by (unvisited t visited).length
decreasing_by exact length_unvisited_lt (mem_of_readPlace _hd) _hv

def load (t : FileTree) (cwd path : String) : Except LoadError Descriptor :=
  (loadFrom t cwd [] path).map fun d => { d with ancestor := none }

end Ancestry

end Devcontainer
