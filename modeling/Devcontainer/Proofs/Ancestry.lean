import Devcontainer.Ancestry
import Devcontainer.Proofs.Descriptor.Merge

/-!
# The documents of a chain

What is loaded from a path is the merge of descriptors that have each come out of a document. The
documents are merged on the way back from the farthest ancestor; what a merged descriptor still says
about its own ancestor goes into no other part, so this is the merge of the whole list.
-/

namespace Devcontainer

namespace Ancestry

open Descriptor

/-- The descriptor at a path and its ancestors, the nearest first. `visited` holds the places of the
documents on the way to here. -/
def documents (t : FileTree) (cwd : String) (visited : List (List String)) (path : String) :
    Except LoadError (List Descriptor) :=
  match t.resolve? cwd path with
  | none => .error (.notFound path)
  | some names =>
    if _hv : names ∈ visited then .error (.cycle ((visited ++ [names]).map Path.ofNames))
    else
      match _hd : readPlace t (Path.ofNames names) names with
      | .error e => .error e
      | .ok d =>
        match reference? d with
        | none => .ok [d]
        | some reference =>
          (documents t cwd (visited ++ [names])
            (pathOf reference (Path.ofNames names.dropLast))).map (d :: ·)
termination_by (unvisited t visited).length
decreasing_by exact length_unvisited_lt (mem_of_readPlace _hd) _hv

theorem exists_json_of_readPlace {t : FileTree} {path : String} {names : List String}
    {d : Descriptor} (h : readPlace t path names = .ok d) :
    ∃ text v, t.readText names = .ok text ∧ Document.read? text = some v ∧ ofJson v = .ok d := by
  unfold readPlace at h
  split at h
  next => cases h
  next text htext =>
    unfold Descriptor.read at h
    split at h
    next v hv =>
      refine ⟨text, v, htext, hv, ?_⟩
      cases hd : ofJson v with
      | error cause => rw [hd] at h; cases h
      | ok d' =>
          rw [hd] at h
          exact congrArg Except.ok (Except.ok.inj h)
    next => cases h

theorem accepted_of_readPlace {t : FileTree} {path : String} {names : List String} {d : Descriptor}
    (h : readPlace t path names = .ok d) : d.Accepted := by
  obtain ⟨-, v, -, -, hread⟩ := exists_json_of_readPlace h
  exact ⟨v, hread⟩

theorem accepted_of_documents {t : FileTree} {cwd path : String} {visited : List (List String)}
    {ds : List Descriptor} (h : documents t cwd visited path = .ok ds) :
    ds ≠ [] ∧ ∀ d ∈ ds, d.Accepted := by
  induction visited, path using documents.induct t cwd generalizing ds with
  | case1 visited path hnone =>
      rw [documents] at h
      simp [hnone] at h
  | case2 visited path names hsome hvisited =>
      rw [documents] at h
      simp [hsome, hvisited] at h
  | case3 visited path names hsome hvisited e hread =>
      rw [documents] at h
      simp only [hsome, hvisited, dif_neg, not_false_eq_true] at h
      split at h
      next => cases h
      next d hd => rw [hread] at hd; cases hd
  | case4 visited path names hsome hvisited d hread hlast =>
      rw [documents] at h
      simp only [hsome, hvisited, dif_neg, not_false_eq_true] at h
      split at h
      next e he => rw [hread] at he; cases he
      next d' hd' =>
        obtain rfl : d' = d := Except.ok.inj (hd'.symm.trans hread)
        rw [hlast] at h
        obtain rfl := Except.ok.inj h
        exact ⟨by simp, by simpa using accepted_of_readPlace hread⟩
  | case5 visited path names hsome hvisited d hread reference hreference ih =>
      rw [documents] at h
      simp only [hsome, hvisited, dif_neg, not_false_eq_true] at h
      split at h
      next e he => rw [hread] at he; cases he
      next d' hd' =>
        obtain rfl : d' = d := Except.ok.inj (hd'.symm.trans hread)
        rw [hreference] at h
        simp only at h
        cases hrest : documents t cwd (visited ++ [names])
            (pathOf reference (Path.ofNames names.dropLast)) with
        | error e => rw [hrest] at h; cases h
        | ok rest =>
            rw [hrest] at h
            obtain rfl := Except.ok.inj h
            refine ⟨by simp, ?_⟩
            intro e he
            rcases List.mem_cons.1 he with rfl | he
            · exact accepted_of_readPlace hread
            · exact (ih hrest).2 e he

/-! ## One document and those behind it -/

/-- The recursion behind a place that has not been visited, without what ensures that it ends. -/
theorem documents_eq {t : FileTree} {cwd path : String} {visited : List (List String)}
    {place : List String} (hplace : t.resolve? cwd path = some place) (hnew : place ∉ visited) :
    documents t cwd visited path =
      match readPlace t (Path.ofNames place) place with
      | .error e => .error e
      | .ok d =>
        match reference? d with
        | none => .ok [d]
        | some reference =>
          (documents t cwd (visited ++ [place])
            (pathOf reference (Path.ofNames place.dropLast))).map (d :: ·) := by
  rw [documents]
  simp only [hplace, hnew, dif_neg, not_false_eq_true]
  cases readPlace t (Path.ofNames place) place <;> rfl

theorem loadFrom_eq {t : FileTree} {cwd path : String} {visited : List (List String)}
    {place : List String} (hplace : t.resolve? cwd path = some place) (hnew : place ∉ visited) :
    loadFrom t cwd visited path =
      match readPlace t (Path.ofNames place) place with
      | .error e => .error e
      | .ok d =>
        match reference? d with
        | none => .ok d
        | some reference =>
          (loadFrom t cwd (visited ++ [place])
            (pathOf reference (Path.ofNames place.dropLast))).map fun base =>
              { base.merge d with ancestor := none } := by
  rw [loadFrom]
  simp only [hplace, hnew, dif_neg, not_false_eq_true]
  cases readPlace t (Path.ofNames place) place <;> rfl

theorem loadFrom_of_eq_none {t : FileTree} {cwd path : String} (visited : List (List String))
    (h : t.resolve? cwd path = none) : loadFrom t cwd visited path = .error (.notFound path) := by
  rw [loadFrom]
  simp only [h]

theorem loadFrom_of_mem {t : FileTree} {cwd path : String} {visited : List (List String)}
    {place : List String} (hplace : t.resolve? cwd path = some place) (h : place ∈ visited) :
    loadFrom t cwd visited path = .error (.cycle ((visited ++ [place]).map Path.ofNames)) := by
  rw [loadFrom]
  simp only [hplace, h, dif_pos]

/-! ## Merging on the way back -/

theorem merge_ancestor (base upper : Descriptor) (reference : Option String) :
    { { base with ancestor := reference }.merge upper with ancestor := none } =
      { base.merge upper with ancestor := none } := by
  unfold merge
  simp only
  split <;> rfl

theorem ancestor_merge_congr {base base' : Descriptor} (upper : Descriptor)
    (h : { base with ancestor := none } = { base' with ancestor := none }) :
    { base.merge upper with ancestor := none } = { base'.merge upper with ancestor := none } := by
  rw [← merge_ancestor base upper none, h, merge_ancestor]

def mergeChain (ds : List Descriptor) : Descriptor :=
  { (mergeAll? ds.reverse).getD .empty with ancestor := none }

theorem mergeChain_cons {base d : Descriptor} {ds : List Descriptor} (hne : ds ≠ [])
    (h : { base with ancestor := none } = mergeChain ds) :
    { base.merge d with ancestor := none } = mergeChain (d :: ds) := by
  obtain ⟨first, rest, hrev⟩ := List.exists_cons_of_ne_nil (mt List.reverse_eq_nil_iff.1 hne)
  have hds : mergeAll? ds.reverse = some (rest.foldl merge first) := by rw [hrev, mergeAll?_cons]
  have hcons : mergeAll? (d :: ds).reverse = some ((rest.foldl merge first).merge d) := by
    rw [List.reverse_cons, mergeAll?_append hds]
    rfl
  rw [mergeChain, hds] at h
  rw [mergeChain, hcons]
  exact ancestor_merge_congr d h

/-- Merging document by document on the way back is merging the list of all documents. -/
theorem map_loadFrom (t : FileTree) (cwd : String) (visited : List (List String)) (path : String) :
    (loadFrom t cwd visited path).map (fun d => { d with ancestor := none }) =
      (documents t cwd visited path).map mergeChain := by
  induction visited, path using loadFrom.induct t cwd with
  | case1 visited path hnone =>
      rw [loadFrom_of_eq_none visited hnone, documents]
      simp only [hnone]
      rfl
  | case2 visited path place hplace hvisited =>
      rw [loadFrom_of_mem hplace hvisited, documents]
      simp only [hplace, hvisited, dif_pos]
      rfl
  | case3 visited path place hplace hnew e hread =>
      rw [loadFrom_eq hplace hnew, documents_eq hplace hnew, hread]
      rfl
  | case4 visited path place hplace hnew d hread hlast =>
      rw [loadFrom_eq hplace hnew, documents_eq hplace hnew, hread]
      simp only [hlast]
      rfl
  | case5 visited path place hplace hnew d hread reference hreference ih =>
      rw [loadFrom_eq hplace hnew, documents_eq hplace hnew, hread]
      simp only [hreference]
      cases hds : documents t cwd (visited ++ [place])
          (pathOf reference (Path.ofNames place.dropLast)) with
      | error e =>
          rw [hds] at ih
          cases hbase : loadFrom t cwd (visited ++ [place])
              (pathOf reference (Path.ofNames place.dropLast)) with
          | error e' => rw [hbase] at ih; exact congrArg Except.error (Except.error.inj ih)
          | ok base => rw [hbase] at ih; cases ih
      | ok ds =>
          rw [hds] at ih
          cases hbase : loadFrom t cwd (visited ++ [place])
              (pathOf reference (Path.ofNames place.dropLast)) with
          | error e => rw [hbase] at ih; cases ih
          | ok base =>
              rw [hbase] at ih
              exact congrArg Except.ok
                (mergeChain_cons (accepted_of_documents hds).1 (Except.ok.inj ih))

theorem load_eq_map_documents (t : FileTree) (cwd path : String) :
    load t cwd path = (documents t cwd [] path).map mergeChain :=
  map_loadFrom t cwd [] path

theorem exists_documents_of_load {t : FileTree} {cwd path : String} {d : Descriptor}
    (h : load t cwd path = .ok d) : ∃ ds m, documents t cwd [] path = .ok ds ∧
      mergeAll? ds.reverse = some m ∧ d = { m with ancestor := none } := by
  rw [load_eq_map_documents] at h
  cases hds : documents t cwd [] path with
  | error e => rw [hds] at h; cases h
  | ok ds =>
      rw [hds] at h
      have hd := Except.ok.inj h
      obtain ⟨hne, -⟩ := accepted_of_documents hds
      cases hrev : ds.reverse with
      | nil => exact absurd (List.reverse_eq_nil_iff.1 hrev) hne
      | cons e es =>
          simp only [mergeChain, hrev, mergeAll?_cons, Option.getD_some] at hd
          exact ⟨ds, es.foldl merge e, rfl, hrev ▸ mergeAll?_cons e es, hd.symm⟩

end Ancestry

end Devcontainer
