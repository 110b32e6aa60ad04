import Devcontainer.Proofs.Ancestry.Chain

/-!
# What a document inherits

A chain that loads to its end is the merge of all its documents, the farthest ancestor first and each
of them once. The documents are those that stand at the places of the chain, read on their own.
-/

namespace Devcontainer

namespace Ancestry

open Descriptor

section

variable {t : FileTree} {cwd path : String}

theorem readPlace_of_loadAlone {place : List String} {d : Descriptor} (hplace : t.IsPlace place)
    (h : loadAlone t cwd (Path.ofNames place) = .ok d) :
    readPlace t (Path.ofNames place) place = .ok d := by
  unfold loadAlone at h
  rw [FileTree.resolve?_ofNames hplace] at h
  split at h
  next => cases h
  next names hnames =>
    split at hnames
    next => cases hnames
    next =>
      obtain rfl := Option.some.inj hnames
      exact h

theorem exists_documentAt {i : Nat} {place : List String} {d : Descriptor}
    (hplace : placeAt? t cwd path i = some place)
    (hload : loadAlone t cwd (Path.ofNames place) = .ok d) :
    ∃ p, pathAt? t cwd path i = some p ∧ documentAt t cwd p = .ok (place, d) := by
  obtain ⟨p, hp, hresolve⟩ := Option.bind_eq_some_iff.1 hplace
  refine ⟨p, hp, ?_⟩
  rw [documentAt_of_resolve? hresolve,
    readPlace_of_loadAlone (FileTree.isPlace_of_resolve? hresolve) hload]
  rfl

theorem nodup_placesBefore {n : Nat} (h : ∀ k, ¬ ComesBack t cwd path k) :
    (placesBefore t cwd path n).Nodup := by
  induction n with
  | zero => exact List.nodup_nil
  | succ n ih =>
      cases hplace : placeAt? t cwd path n with
      | none =>
          rw [placesBefore, List.range_succ, List.filterMap_append]
          simpa [placesBefore, hplace] using ih
      | some place =>
          rw [placesBefore_succ hplace, ← List.concat_eq_append]
          exact ih.concat (mt (comesBack_iff hplace).2 (h n))

/-- The documents from the `i`-th on, when all of them up to the `n`-th can be read and that one names
no ancestor. -/
theorem documents_eq_map {n : Nat} {place : Nat → List String} {config : Nat → Descriptor}
    (hplace : ∀ i ≤ n, placeAt? t cwd path i = some (place i))
    (hconfig : ∀ i ≤ n, loadAlone t cwd (Path.ofNames (place i)) = .ok (config i))
    (hroot : reference? (config n) = none) (hback : ∀ k, ¬ ComesBack t cwd path k) {m i : Nat}
    (hi : i + m = n) {p : String} (hp : pathAt? t cwd path i = some p) :
    documents t cwd (placesBefore t cwd path i) p =
      .ok ((List.range' i (m + 1)).map config) := by
  induction m generalizing i p with
  | zero =>
      obtain rfl : i = n := hi
      have hresolve : t.resolve? cwd p = some (place i) :=
        (placeAt?_eq hp).symm.trans (hplace i (Nat.le_refl i))
      have hnew : place i ∉ placesBefore t cwd path i :=
        mt (comesBack_iff (hplace i (Nat.le_refl i))).2 (hback i)
      rw [documents_eq hresolve hnew, readPlace_of_loadAlone
        (FileTree.isPlace_of_resolve? hresolve) (hconfig i (Nat.le_refl i))]
      simp only [hroot]
      rfl
  | succ m ih =>
      have hle : i ≤ n := by omega
      have hresolve : t.resolve? cwd p = some (place i) :=
        (placeAt?_eq hp).symm.trans (hplace i hle)
      have hnew : place i ∉ placesBefore t cwd path i :=
        mt (comesBack_iff (hplace i hle)).2 (hback i)
      -- the next place is there, so this document names an ancestor
      obtain ⟨q, hq, -⟩ := exists_documentAt (hplace (i + 1) (by omega)) (hconfig (i + 1) (by omega))
      obtain ⟨p', hp', hdoc⟩ := exists_documentAt (hplace i hle) (hconfig i hle)
      obtain rfl : p = p' := Option.some.inj (hp.symm.trans hp')
      rw [pathAt?_succ hp, ancestorPath?_of_documentAt hdoc] at hq
      obtain ⟨reference, hreference, hnext⟩ := Option.map_eq_some_iff.1 hq
      have hq' : pathAt? t cwd path (i + 1) =
          some (pathOf reference (Path.ofNames (place i).dropLast)) := by
        rw [pathAt?_succ hp, ancestorPath?_of_documentAt hdoc, hreference]
        rfl
      have hrest := ih (by omega) hq'
      rw [placesBefore_succ (hplace i hle)] at hrest
      rw [documents_eq hresolve hnew, (resolve?_of_documentAt hdoc).2]
      simp only [hreference, hrest]
      rfl

end

/-- A chain whose documents can all be read, the last of them without an ancestor, loads to the merge
of these documents from the last to the first, the reference to the ancestor cleared. No place comes
twice. -/
theorem load_eq_mergeAll? {t : FileTree} {cwd path : String} {n : Nat} {place : Nat → List String}
    {config : Nat → Descriptor} (hplace : ∀ i ≤ n, placeAt? t cwd path i = some (place i))
    (hconfig : ∀ i ≤ n, loadAlone t cwd (Path.ofNames (place i)) = .ok (config i))
    (hroot : reference? (config n) = none) :
    (∃ m, mergeAll? ((List.range (n + 1)).map config).reverse = some m ∧
        load t cwd path = .ok { m with ancestor := none }) ∧
      ((List.range (n + 1)).map place).Nodup := by
  obtain ⟨p, hp, hdoc⟩ := exists_documentAt (hplace n (Nat.le_refl n)) (hconfig n (Nat.le_refl n))
  have hend : pathAt? t cwd path (n + 1) = none := by
    rw [pathAt?_succ hp, ancestorPath?_of_documentAt hdoc, hroot]
    rfl
  have hback : ∀ k, ¬ ComesBack t cwd path k := fun k hk => hk.pathAt?_ne_none (n + 1) hend
  constructor
  · have hdocs : documents t cwd [] path = .ok ((List.range (n + 1)).map config) := by
      rw [List.range_eq_range']
      exact documents_eq_map hplace hconfig hroot hback (Nat.zero_add n) rfl
    obtain ⟨first, rest, hrev⟩ : ∃ first rest,
        ((List.range (n + 1)).map config).reverse = first :: rest :=
      List.exists_cons_of_ne_nil (by simp)
    refine ⟨rest.foldl merge first, by rw [hrev, mergeAll?_cons], ?_⟩
    rw [load_eq_map_documents, hdocs]
    show Except.ok (mergeChain _) = _
    rw [mergeChain, hrev, mergeAll?_cons]
    rfl
  · have hplaces : placesBefore t cwd path (n + 1) = (List.range (n + 1)).map place := by
      rw [placesBefore, ← List.filterMap_eq_map]
      refine List.filterMap_congr fun i hi => ?_
      exact hplace i (Nat.lt_succ_iff.1 (List.mem_range.1 hi))
    rw [← hplaces]
    exact nodup_placesBefore hback

def threeGenerations : FileTree := ⟨[
  (["start.json"], .link "app/leaf.json"),
  (["app"], .directory),
  (["app", "leaf.json"], .file (some
    "\x7b\"extends\": \"../base\", \"name\": \"leaf\"\x7d")),
  (["base"], .directory),
  (["base", ".devcontainer"], .directory),
  (["base", ".devcontainer", "devcontainer.json"], .file (some
    "\x7b\"extends\": \"../../root.json\", \"name\": \"base\", \"image\": \"alpine\"\x7d")),
  (["root.json"], .file (some
    "\x7b\"extends\": \"\", \"image\": \"debian\", \"remoteUser\": \"dev\"\x7d"))]⟩

def generationPlace : Nat → List String
  | 0 => ["app", "leaf.json"]
  | 1 => ["base", ".devcontainer", "devcontainer.json"]
  | _ => ["root.json"]

def generation : Nat → Descriptor
  | 0 => { empty with ancestor := some "../base", name := some "leaf" }
  | 1 =>
    { empty with
      ancestor := some "../../root.json"
      name := some "base"
      selector := some (.image "alpine") }
  | _ =>
    { empty with
      ancestor := some ""
      selector := some (.image "debian")
      remoteUser := some "dev" }

theorem load_eq_mergeAll?_threeGenerations :
    (∀ i ≤ 2, placeAt? threeGenerations "/" "/start.json" i = some (generationPlace i)) ∧
    (∀ i ≤ 2, loadAlone threeGenerations "/" (Path.ofNames (generationPlace i)) =
      .ok (generation i)) ∧
    reference? (generation 2) = none ∧
    load threeGenerations "/" "/start.json" = .ok
      { empty with
        name := some "leaf"
        selector := some (.image "alpine")
        remoteUser := some "dev" } ∧
    ((List.range 3).map generationPlace).Nodup := by
  have hplace : ∀ i ≤ 2,
      placeAt? threeGenerations "/" "/start.json" i = some (generationPlace i) := by
    decide +kernel
  have hread : ∀ i ≤ 2, (loadAlone threeGenerations "/"
      (Path.ofNames (generationPlace i))).toOption = some (generation i) := by
    decide +kernel
  have hconfig : ∀ i ≤ 2, loadAlone threeGenerations "/" (Path.ofNames (generationPlace i)) =
      .ok (generation i) := by
    intro i hi
    have h := hread i hi
    cases hload : loadAlone threeGenerations "/" (Path.ofNames (generationPlace i)) with
    | error e => rw [hload] at h; cases h
    | ok d => rw [hload] at h; exact congrArg Except.ok (Option.some.inj h)
  have hroot : reference? (generation 2) = none := by decide
  obtain ⟨⟨m, hm, hload⟩, hnodup⟩ := load_eq_mergeAll? hplace hconfig hroot
  have hmerged : mergeAll? ((List.range 3).map generation).reverse = some
      { empty with
        ancestor := some "../base"
        name := some "leaf"
        selector := some (.image "alpine")
        remoteUser := some "dev" } := by
    decide +kernel
  obtain rfl := Option.some.inj (hm.symm.trans hmerged)
  exact ⟨hplace, hconfig, hroot, hload, hnodup⟩

end Ancestry

end Devcontainer
