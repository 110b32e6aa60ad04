import Devcontainer.Proofs.Ancestry
import Devcontainer.Proofs.FileTree
import Mathlib.Data.List.Nodup
import Mathlib.Data.List.Perm.Subperm

/-!
# Chains of ancestors

The chain of a path is the sequence of places at which its document, the document's ancestor, the
ancestor's ancestor and so on stand. Loading follows the chain: it reports a cycle exactly when a
place comes again, with the places up to the first one that does, and otherwise the chain ends within
the number of entries of the tree, with the first document that cannot be had or with one that names
no ancestor.
-/

namespace Devcontainer

namespace Ancestry

def documentAt (t : FileTree) (cwd path : String) : Except LoadError (List String × Descriptor) :=
  match t.resolve? cwd path with
  | none => .error (.notFound path)
  | some place => (readPlace t (Path.ofNames place) place).map (place, ·)

/-- The path of the ancestor that the document at a path names, from the directory of its place. -/
def ancestorPath? (t : FileTree) (cwd path : String) : Option String :=
  match documentAt t cwd path with
  | .error _ => none
  | .ok (place, d) =>
    (reference? d).map fun reference => pathOf reference (Path.ofNames place.dropLast)

def pathAt? (t : FileTree) (cwd path : String) : (n : Nat) → Option String
  | 0 => some path
  | n + 1 => (pathAt? t cwd path n).bind (ancestorPath? t cwd)

def placeAt? (t : FileTree) (cwd path : String) (n : Nat) : Option (List String) :=
  (pathAt? t cwd path n).bind (t.resolve? cwd)

def placesBefore (t : FileTree) (cwd path : String) (n : Nat) : List (List String) :=
  (List.range n).filterMap (placeAt? t cwd path)

def ComesBack (t : FileTree) (cwd path : String) (k : Nat) : Prop :=
  ∃ j < k, ∃ place, placeAt? t cwd path j = some place ∧ placeAt? t cwd path k = some place

section

variable {t : FileTree} {cwd path : String}

/-! ## One document -/

theorem documentAt_of_eq_none {p : String} (h : t.resolve? cwd p = none) :
    documentAt t cwd p = .error (.notFound p) := by
  rw [documentAt, h]

theorem documentAt_of_resolve? {p : String} {place : List String}
    (h : t.resolve? cwd p = some place) :
    documentAt t cwd p = (readPlace t (Path.ofNames place) place).map (place, ·) := by
  rw [documentAt, h]

theorem resolve?_of_documentAt {p : String} {place : List String} {d : Descriptor}
    (h : documentAt t cwd p = .ok (place, d)) :
    t.resolve? cwd p = some place ∧ readPlace t (Path.ofNames place) place = .ok d := by
  unfold documentAt at h
  split at h
  next => cases h
  next found hfound =>
    cases hread : readPlace t (Path.ofNames found) found with
    | error e => rw [hread] at h; cases h
    | ok d' =>
        rw [hread] at h
        obtain ⟨rfl, rfl⟩ := Prod.mk.inj (Except.ok.inj h)
        exact ⟨hfound, hread⟩

theorem documentAt_ne_cycle (p : String) (texts : List String) :
    documentAt t cwd p ≠ .error (.cycle texts) := by
  intro h
  unfold documentAt readPlace at h
  split at h
  next => cases h
  next =>
    split at h
    next => cases h
    next text htext =>
      cases hread : Descriptor.read text <;> rw [hread] at h <;> cases h

theorem ancestorPath?_of_documentAt {p : String} {place : List String} {d : Descriptor}
    (h : documentAt t cwd p = .ok (place, d)) :
    ancestorPath? t cwd p =
      (reference? d).map fun reference => pathOf reference (Path.ofNames place.dropLast) := by
  rw [ancestorPath?, h]

theorem ancestorPath?_of_error {p : String} {e : LoadError} (h : documentAt t cwd p = .error e) :
    ancestorPath? t cwd p = none := by
  rw [ancestorPath?, h]

theorem exists_document_of_ancestorPath? {p q : String} (h : ancestorPath? t cwd p = some q) :
    ∃ place d reference, documentAt t cwd p = .ok (place, d) ∧ reference? d = some reference ∧
      q = pathOf reference (Path.ofNames place.dropLast) := by
  cases hdoc : documentAt t cwd p with
  | error e => rw [ancestorPath?_of_error hdoc] at h; cases h
  | ok found =>
      obtain ⟨place, d⟩ := found
      rw [ancestorPath?_of_documentAt hdoc] at h
      obtain ⟨reference, hreference, hq⟩ := Option.map_eq_some_iff.1 h
      exact ⟨place, d, reference, rfl, hreference, hq.symm⟩

/-! ## The sequence of places -/

theorem pathAt?_succ {n : Nat} {p : String} (hp : pathAt? t cwd path n = some p) :
    pathAt? t cwd path (n + 1) = ancestorPath? t cwd p := by
  rw [pathAt?, hp, Option.bind_some]

theorem placeAt?_eq {n : Nat} {p : String} (hp : pathAt? t cwd path n = some p) :
    placeAt? t cwd path n = t.resolve? cwd p := by
  rw [placeAt?, hp, Option.bind_some]

theorem exists_document_of_pathAt?_succ {n : Nat} {q : String}
    (h : pathAt? t cwd path (n + 1) = some q) :
    ∃ p place, pathAt? t cwd path n = some p ∧ placeAt? t cwd path n = some place ∧
      place ∈ t.entries.map Prod.fst := by
  obtain ⟨p, hp, hq⟩ := Option.bind_eq_some_iff.1 h
  obtain ⟨place, d, -, hdoc, -, -⟩ := exists_document_of_ancestorPath? hq
  obtain ⟨hplace, hread⟩ := resolve?_of_documentAt hdoc
  exact ⟨p, place, hp, (placeAt?_eq hp).trans hplace, mem_of_readPlace hread⟩

theorem pathAt?_eq_none_of_le {n k : Nat} (h : pathAt? t cwd path n = none) (hk : n ≤ k) :
    pathAt? t cwd path k = none := by
  obtain ⟨m, rfl⟩ := Nat.exists_eq_add_of_le hk
  clear hk
  induction m with
  | zero => exact h
  | succ m ih => rw [← Nat.add_assoc, pathAt?, ih, Option.bind_none]

theorem mem_placesBefore {n : Nat} {place : List String} :
    place ∈ placesBefore t cwd path n ↔ ∃ j < n, placeAt? t cwd path j = some place := by
  simp [placesBefore]

theorem placesBefore_zero : placesBefore t cwd path 0 = [] := rfl

theorem placesBefore_succ {n : Nat} {place : List String}
    (h : placeAt? t cwd path n = some place) :
    placesBefore t cwd path (n + 1) = placesBefore t cwd path n ++ [place] := by
  rw [placesBefore, List.range_succ, List.filterMap_append]
  simp [placesBefore, h]

theorem sublist_placesBefore {m n : Nat} (h : m ≤ n) :
    (placesBefore t cwd path m).Sublist (placesBefore t cwd path n) := by
  obtain ⟨k, rfl⟩ := Nat.exists_eq_add_of_le h
  rw [placesBefore, placesBefore, List.range_add, List.filterMap_append]
  exact List.sublist_append_left ..

theorem placesBefore_of_pathAt? {n : Nat} {p : String} (h : pathAt? t cwd path n = some p) :
    (placesBefore t cwd path n).length = n ∧
      ∀ place ∈ placesBefore t cwd path n, place ∈ t.entries.map Prod.fst := by
  induction n generalizing p with
  | zero => exact ⟨rfl, nofun⟩
  | succ n ih =>
      obtain ⟨q, place, hq, hplace, hmem⟩ := exists_document_of_pathAt?_succ h
      obtain ⟨hlength, hall⟩ := ih hq
      rw [placesBefore_succ hplace]
      refine ⟨by simp [hlength], fun place' hplace' => ?_⟩
      rcases List.mem_append.1 hplace' with hplace' | hplace'
      · exact hall place' hplace'
      · exact List.mem_singleton.1 hplace' ▸ hmem

/-- As long as no place comes again, a chain is no longer than the tree has entries. -/
theorem le_length_entries {n : Nat} {p : String} (h : pathAt? t cwd path n = some p)
    (hnodup : (placesBefore t cwd path n).Nodup) : n ≤ t.entries.length := by
  obtain ⟨hlength, hall⟩ := placesBefore_of_pathAt? h
  have hle := (List.subperm_of_subset hnodup hall).length_le
  rwa [hlength, List.length_map] at hle

theorem comesBack_iff {k : Nat} {place : List String} (h : placeAt? t cwd path k = some place) :
    ComesBack t cwd path k ↔ place ∈ placesBefore t cwd path k := by
  rw [mem_placesBefore]
  constructor
  · rintro ⟨j, hj, place', hplace', hk⟩
    obtain rfl : place = place' := Option.some.inj (h.symm.trans hk)
    exact ⟨j, hj, hplace'⟩
  · rintro ⟨j, hj, hplace⟩
    exact ⟨j, hj, place, hplace, h⟩

theorem not_comesBack_of_nodup {n i : Nat} (hnodup : (placesBefore t cwd path n).Nodup)
    (hi : i < n) : ¬ ComesBack t cwd path i := by
  intro hback
  obtain ⟨-, -, place, -, hplace⟩ := id hback
  have hprefix : (placesBefore t cwd path (i + 1)).Nodup :=
    hnodup.sublist (sublist_placesBefore hi)
  rw [placesBefore_succ hplace, List.nodup_append] at hprefix
  exact hprefix.2.2 place ((comesBack_iff hplace).1 hback) place (by simp) rfl

theorem nodup_map_ofNames {n : Nat} (hnodup : (placesBefore t cwd path n).Nodup) :
    ((placesBefore t cwd path n).map Path.ofNames).Nodup := by
  have hplaces : ∀ place ∈ placesBefore t cwd path n, t.IsPlace place := by
    intro place hplace
    obtain ⟨j, -, hj⟩ := mem_placesBefore.1 hplace
    obtain ⟨p, -, hp⟩ := Option.bind_eq_some_iff.1 hj
    exact FileTree.isPlace_of_resolve? hp
  exact hnodup.map_on fun a ha b hb => FileTree.ofNames_inj (hplaces a ha) (hplaces b hb)

/-- The report of a cycle: its last place is the only one that has come before. -/
theorem exists_again {k : Nat} (hnodup : (placesBefore t cwd path k).Nodup)
    (hback : ComesBack t cwd path k) :
    ∃ distinct again, (placesBefore t cwd path (k + 1)).map Path.ofNames = distinct ++ [again] ∧
      distinct.Nodup ∧ again ∈ distinct := by
  obtain ⟨-, -, place, -, hplace⟩ := id hback
  refine ⟨(placesBefore t cwd path k).map Path.ofNames, Path.ofNames place, ?_,
    nodup_map_ofNames hnodup, ?_⟩
  · rw [placesBefore_succ hplace, List.map_append, List.map_singleton]
  · exact List.mem_map_of_mem ((comesBack_iff hplace).1 hback)

theorem pathAt?_add_of_placeAt?_eq {j k : Nat} {place : List String}
    (hj : placeAt? t cwd path j = some place) (hk : placeAt? t cwd path k = some place) (i : Nat) :
    pathAt? t cwd path (j + 1 + i) = pathAt? t cwd path (k + 1 + i) := by
  induction i with
  | zero =>
      obtain ⟨p, hp, hplacep⟩ := Option.bind_eq_some_iff.1 hj
      obtain ⟨q, hq, hplaceq⟩ := Option.bind_eq_some_iff.1 hk
      have hdoc : documentAt t cwd p = documentAt t cwd q := by
        rw [documentAt_of_resolve? hplacep, documentAt_of_resolve? hplaceq]
      rw [Nat.add_zero, Nat.add_zero, pathAt?_succ hp, pathAt?_succ hq, ancestorPath?, ancestorPath?,
        hdoc]
  | succ i ih => rw [← Nat.add_assoc, ← Nat.add_assoc, pathAt?, pathAt?, ih]

/-- A chain that comes back to a place goes on for ever: behind the second visit it goes as it did
behind the first one. -/
theorem ComesBack.pathAt?_ne_none {k : Nat} (h : ComesBack t cwd path k) (n : Nat) :
    pathAt? t cwd path n ≠ none := by
  obtain ⟨j, hjk, place, hj, hk⟩ := h
  induction n using Nat.strongRecOn with
  | ind n ih =>
      intro hnone
      rcases Nat.lt_or_ge k n with hkn | hnk
      · obtain ⟨i, rfl⟩ := Nat.exists_eq_add_of_le hkn
        have hearlier : j + 1 + i < k.succ + i := by omega
        exact ih _ hearlier ((pathAt?_add_of_placeAt?_eq hj hk i).trans hnone)
      · rw [placeAt?, pathAt?_eq_none_of_le hnone hnk] at hk
        cases hk

/-! ## Following the chain -/

/-- Loading from the `n`-th path of a chain whose places have all been different goes on to some
`k`-th path, and its result is decided there. -/
theorem exists_end {visited : List (List String)} {p : String} {n : Nat}
    (hp : pathAt? t cwd path n = some p) (hvisited : visited = placesBefore t cwd path n)
    (hnodup : visited.Nodup) :
    ∃ k last, pathAt? t cwd path k = some last ∧ (placesBefore t cwd path k).Nodup ∧
      (ComesBack t cwd path k ∧
          loadFrom t cwd visited p =
            .error (.cycle ((placesBefore t cwd path (k + 1)).map Path.ofNames)) ∨
        ancestorPath? t cwd last = none ∧
          ((∃ e, documentAt t cwd last = .error e ∧ loadFrom t cwd visited p = .error e) ∨
            ∃ found m, documentAt t cwd last = .ok found ∧ loadFrom t cwd visited p = .ok m)) := by
  induction visited, p using loadFrom.induct t cwd generalizing n with
  | case1 visited p hnone =>
      have hdoc := documentAt_of_eq_none hnone
      exact ⟨n, p, hp, hvisited ▸ hnodup, Or.inr ⟨ancestorPath?_of_error hdoc,
        Or.inl ⟨_, hdoc, loadFrom_of_eq_none visited hnone⟩⟩⟩
  | case2 visited p place hplace hmem =>
      have hat := (placeAt?_eq hp).trans hplace
      refine ⟨n, p, hp, hvisited ▸ hnodup, Or.inl ⟨(comesBack_iff hat).2 (hvisited ▸ hmem), ?_⟩⟩
      rw [loadFrom_of_mem hplace hmem, placesBefore_succ hat, hvisited]
  | case3 visited p place hplace hnew e hread =>
      have hdoc : documentAt t cwd p = .error e := by rw [documentAt_of_resolve? hplace, hread]; rfl
      refine ⟨n, p, hp, hvisited ▸ hnodup, Or.inr ⟨ancestorPath?_of_error hdoc,
        Or.inl ⟨e, hdoc, ?_⟩⟩⟩
      rw [loadFrom_eq hplace hnew, hread]
  | case4 visited p place hplace hnew d hread hlast =>
      have hdoc : documentAt t cwd p = .ok (place, d) := by
        rw [documentAt_of_resolve? hplace, hread]
        rfl
      have hnext : ancestorPath? t cwd p = none := by
        rw [ancestorPath?_of_documentAt hdoc, hlast]
        rfl
      refine ⟨n, p, hp, hvisited ▸ hnodup, Or.inr ⟨hnext, Or.inr ⟨_, d, hdoc, ?_⟩⟩⟩
      rw [loadFrom_eq hplace hnew, hread]
      simp only [hlast]
  | case5 visited p place hplace hnew d hread reference hreference ih =>
      have hat := (placeAt?_eq hp).trans hplace
      have hdoc : documentAt t cwd p = .ok (place, d) := by
        rw [documentAt_of_resolve? hplace, hread]
        rfl
      have hnext : pathAt? t cwd path (n + 1) =
          some (pathOf reference (Path.ofNames place.dropLast)) := by
        rw [pathAt?_succ hp, ancestorPath?_of_documentAt hdoc, hreference]
        rfl
      have hvisited' : visited ++ [place] = placesBefore t cwd path (n + 1) := by
        rw [placesBefore_succ hat, hvisited]
      have hnodup' : (visited ++ [place]).Nodup := by
        rw [← List.concat_eq_append]
        exact hnodup.concat hnew
      obtain ⟨k, last, hk, hnodupk, hend⟩ := ih hnext hvisited' hnodup'
      refine ⟨k, last, hk, hnodupk, ?_⟩
      have hload := loadFrom_eq hplace hnew
      rw [hread] at hload
      simp only [hreference] at hload
      rw [hload]
      rcases hend with ⟨hback, hcycle⟩ | ⟨hlast, ⟨e, he, herror⟩ | ⟨found, m, hfound, hm⟩⟩
      · exact Or.inl ⟨hback, by rw [hcycle]; rfl⟩
      · exact Or.inr ⟨hlast, Or.inl ⟨e, he, by rw [herror]; rfl⟩⟩
      · exact Or.inr ⟨hlast, Or.inr ⟨found, _, hfound, by rw [hm]; rfl⟩⟩

end

/-- Loading reports a cycle exactly when a place of the chain comes again. The report then holds the
places up to the first one that does, which differ from one another but for the last. Otherwise the
chain comes to an end, and the result is the failure met there or a descriptor. -/
theorem load_follows_chain (t : FileTree) (cwd path : String) :
    ((∃ texts, load t cwd path = .error (.cycle texts)) ↔ ∃ k, ComesBack t cwd path k) ∧
    (∀ texts, load t cwd path = .error (.cycle texts) →
      ∃ k ≤ t.entries.length, ComesBack t cwd path k ∧ (∀ i < k, ¬ ComesBack t cwd path i) ∧
        texts = (placesBefore t cwd path (k + 1)).map Path.ofNames ∧ texts.length = k + 1 ∧
        ∃ distinct again, texts = distinct ++ [again] ∧ distinct.Nodup ∧ again ∈ distinct) ∧
    ((∀ k, ¬ ComesBack t cwd path k) →
      ∃ n ≤ t.entries.length, ∃ last, pathAt? t cwd path n = some last ∧
        pathAt? t cwd path (n + 1) = none ∧
        ((∃ e, documentAt t cwd last = .error e ∧ load t cwd path = .error e) ∨
          ∃ found d, documentAt t cwd last = .ok found ∧ load t cwd path = .ok d)) := by
  have hstart : pathAt? t cwd path 0 = some path := rfl
  have hvisited : [] = placesBefore t cwd path 0 := placesBefore_zero.symm
  obtain ⟨k, last, hk, hnodup, hend⟩ := exists_end hstart hvisited List.nodup_nil
  have hbound : k ≤ t.entries.length := le_length_entries hk hnodup
  rcases hend with ⟨hback, hfrom⟩ | ⟨hlast, hend⟩
  · have hload : load t cwd path =
        .error (.cycle ((placesBefore t cwd path (k + 1)).map Path.ofNames)) := by
      rw [load, hfrom]
      rfl
    refine ⟨⟨fun _ => ⟨k, hback⟩, fun _ => ⟨_, hload⟩⟩, fun texts htexts => ?_,
      fun hnever => absurd hback (hnever k)⟩
    obtain rfl : _ = texts := LoadError.cycle.inj (Except.error.inj (hload.symm.trans htexts))
    obtain ⟨-, -, place, -, hplace⟩ := id hback
    have hlength : (placesBefore t cwd path (k + 1)).length = k + 1 := by
      rw [placesBefore_succ hplace, List.length_append, (placesBefore_of_pathAt? hk).1]
      rfl
    exact ⟨k, hbound, hback, fun i hi => not_comesBack_of_nodup hnodup hi, rfl,
      by rw [List.length_map, hlength], exists_again hnodup hback⟩
  · have hstop : pathAt? t cwd path (k + 1) = none := (pathAt?_succ hk).trans hlast
    have hnever : ∀ i, ¬ ComesBack t cwd path i := fun i hi => hi.pathAt?_ne_none (k + 1) hstop
    have hend' : (∃ e, documentAt t cwd last = .error e ∧ load t cwd path = .error e) ∨
        ∃ found d, documentAt t cwd last = .ok found ∧ load t cwd path = .ok d := by
      rcases hend with ⟨e, he, hfrom⟩ | ⟨found, m, hfound, hfrom⟩
      · exact Or.inl ⟨e, he, by rw [load, hfrom]; rfl⟩
      · exact Or.inr ⟨found, _, hfound, by rw [load, hfrom]; rfl⟩
    have hcycle : ∀ texts, load t cwd path ≠ .error (.cycle texts) := by
      intro texts htexts
      rcases hend' with ⟨e, he, hload⟩ | ⟨found, d, -, hload⟩
      · obtain rfl := Except.error.inj (hload.symm.trans htexts)
        exact documentAt_ne_cycle last texts he
      · cases hload.symm.trans htexts
    refine ⟨⟨fun ⟨texts, htexts⟩ => absurd htexts (hcycle texts),
        fun ⟨i, hi⟩ => absurd hi (hnever i)⟩,
      fun texts htexts => absurd htexts (hcycle texts), fun _ => ?_⟩
    exact ⟨k, hbound, last, hk, hstop, hend'⟩

end Ancestry

end Devcontainer
