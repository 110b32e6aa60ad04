import Devcontainer.Proofs.Ancestry.Chain
import Devcontainer.Proofs.Descriptor.Precedence
import Devcontainer.Proofs.Descriptor.Unknown
import Devcontainer.Proofs.Document
import Devcontainer.Proofs.Launch.Folder
import Devcontainer.Resolve

/-!
# Unknown keys from the documents to the print

A key without a meaning goes through reading, merging and expansion with the value that the nearest
document gives it. In print these keys stand behind all known ones, in the order in which they first
come when the chain is read from its farthest document on.
-/

namespace Devcontainer

open Descriptor

namespace Ancestry

def membersAt? (t : FileTree) (place : List String) : Option (List (String × Json)) :=
  match t.readText place with
  | .error _ => none
  | .ok text =>
    match Document.read? text with
    | some (.object members) => some members
    | _ => none

def sourceAt? (t : FileTree) (cwd path : String) (n : Nat) : Option (List (String × Json)) :=
  (placeAt? t cwd path n).bind (membersAt? t)

section

variable {t : FileTree} {cwd path : String}

/-- What is read at a place is an object with distinct keys, and the unknown ones are kept. -/
theorem exists_members_of_readPlace {shown : String} {place : List String} {d : Descriptor}
    (h : readPlace t shown place = .ok d) :
    ∃ members, membersAt? t place = some members ∧ (members.map Prod.fst).Nodup ∧
      d.other.entries = unknownMembers members := by
  obtain ⟨text, v, htext, hv, hread⟩ := exists_json_of_readPlace h
  cases v with
  | object members =>
      have hdistinct : (members.map Prod.fst).Nodup := (Document.distinctKeys_of_read? hv).1
      refine ⟨members, ?_, hdistinct, entries_other_of_ofJson hdistinct hread⟩
      simp only [membersAt?, htext, hv]
  | _ => cases hread

/-! ## The chain behind its first document -/

theorem pathAt?_add_one (n : Nat) : pathAt? t cwd path (n + 1) =
    (ancestorPath? t cwd path).bind fun ancestor => pathAt? t cwd ancestor n := by
  induction n with
  | zero =>
      show ancestorPath? t cwd path = (ancestorPath? t cwd path).bind some
      rw [Option.bind_fun_some]
  | succ n ih =>
      rw [pathAt?, ih, Option.bind_assoc]
      rfl

theorem sourceAt?_add_one (n : Nat) : sourceAt? t cwd path (n + 1) =
    (ancestorPath? t cwd path).bind fun ancestor => sourceAt? t cwd ancestor n := by
  simp only [sourceAt?, placeAt?, pathAt?_add_one, Option.bind_assoc]

theorem sourceAt?_zero {place : List String} (h : t.resolve? cwd path = some place) :
    sourceAt? t cwd path 0 = membersAt? t place := by
  rw [sourceAt?, placeAt?_eq rfl, h, Option.bind_some]

theorem ancestorPath?_eq {place : List String} {d : Descriptor}
    (hplace : t.resolve? cwd path = some place)
    (hread : readPlace t (Path.ofNames place) place = .ok d) :
    ancestorPath? t cwd path =
      (reference? d).map fun reference => pathOf reference (Path.ofNames place.dropLast) := by
  apply ancestorPath?_of_documentAt
  rw [documentAt_of_resolve? hplace, hread]
  rfl

theorem exists_sources_of_documents {visited : List (List String)} {ds : List Descriptor}
    (h : documents t cwd visited path = .ok ds) :
    ∃ sources : List (List (String × Json)),
      (∀ n, sources[n]? = sourceAt? t cwd path n) ∧
      (∀ source ∈ sources, (source.map Prod.fst).Nodup) ∧
      ds.map (·.other.entries) = sources.map unknownMembers := by
  induction visited, path using documents.induct t cwd generalizing ds with
  | case1 visited path hnone =>
      rw [documents] at h
      simp [hnone] at h
  | case2 visited path place hplace hvisited =>
      rw [documents] at h
      simp [hplace, hvisited] at h
  | case3 visited path place hplace hnew e hread =>
      rw [documents_eq hplace hnew, hread] at h
      cases h
  | case4 visited path place hplace hnew d hread hlast =>
      rw [documents_eq hplace hnew, hread] at h
      simp only [hlast] at h
      obtain rfl := Except.ok.inj h
      obtain ⟨members, hmembers, hdistinct, hother⟩ := exists_members_of_readPlace hread
      have hend : ancestorPath? t cwd path = none := by
        rw [ancestorPath?_eq hplace hread, hlast, Option.map_none]
      refine ⟨[members], fun n => ?_, by simpa using hdistinct, by simp [hother]⟩
      cases n with
      | zero => rw [sourceAt?_zero hplace, hmembers]; rfl
      | succ n => rw [sourceAt?_add_one, hend]; rfl
  | case5 visited path place hplace hnew d hread reference hreference ih =>
      rw [documents_eq hplace hnew, hread] at h
      simp only [hreference] at h
      cases hrest : documents t cwd (visited ++ [place])
          (pathOf reference (Path.ofNames place.dropLast)) with
      | error e => rw [hrest] at h; cases h
      | ok rest =>
          rw [hrest] at h
          obtain rfl := Except.ok.inj h
          obtain ⟨sources, hsources, hall, hothers⟩ := ih hrest
          obtain ⟨members, hmembers, hdistinct, hother⟩ := exists_members_of_readPlace hread
          have hnext := ancestorPath?_eq hplace hread
          rw [hreference, Option.map_some] at hnext
          refine ⟨members :: sources, fun n => ?_, List.forall_mem_cons.2 ⟨hdistinct, hall⟩, ?_⟩
          · cases n with
            | zero => rw [sourceAt?_zero hplace, hmembers]; rfl
            | succ n => rw [sourceAt?_add_one, hnext, Option.bind_some, ← hsources n]; rfl
          · rw [List.map_cons, List.map_cons, hother, hothers]

end

end Ancestry

namespace Descriptor

theorem other_of_expandInPlace {c : Context} {d e : Descriptor} {report : Report}
    (h : d.expandInPlace c = .ok (e, report)) : e.other = d.other := by
  obtain ⟨report', hexpand, -⟩ := exists_expand_of_expandInPlace h
  rw [(eq_of_expand hexpand).1]
  rfl

/-! ## Unknown keys of several documents -/

/-- The members have the unknown keys of all documents, each of them once, in the order in which they
first come from the farthest document on, with the values of the nearest document that has the key.
The nearest document is the first of the list. -/
structure Inherits (sources : List (List (String × Json))) (members : List (String × Json)) :
    Prop where
  once : (members.map Prod.fst).Nodup
  keys : members.map Prod.fst =
    ((sources.reverse.flatMap (·.map Prod.fst)).filter (· ∉ knownKeys)).eraseDups
  value : ∀ key ∉ knownKeys, members.lookup key = sources.findSome? (·.lookup key)

theorem map_fst_unknownMembers (members : List (String × Json)) :
    (unknownMembers members).map Prod.fst = (members.map Prod.fst).filter (· ∉ knownKeys) := by
  rw [unknownMembers, List.filter_map]
  rfl

theorem lookup_unknownMembers {key : String} (h : key ∉ knownKeys)
    (members : List (String × Json)) : (unknownMembers members).lookup key = members.lookup key := by
  induction members with
  | nil => rfl
  | cons e members ih =>
      obtain ⟨k, v⟩ := e
      rw [lookup_cons_eq_ite]
      by_cases hk : k ∈ knownKeys
      · have hne : key ≠ k := fun heq => h (heq ▸ hk)
        rw [unknownMembers, List.filter_cons_of_neg (by simpa using hk), if_neg hne]
        exact ih
      · rw [unknownMembers, List.filter_cons_of_pos (by simpa using hk), lookup_cons_eq_ite]
        exact congrArg (fun rest => if key = k then some v else rest) ih

theorem lastDeclared_reverse {α : Type} (get : Descriptor → Option α) (ds : List Descriptor) :
    lastDeclared get ds.reverse = ds.findSome? get := by
  rw [lastDeclared, List.filterMap_reverse, List.getLast?_reverse, List.head?_filterMap]

theorem inherits_of_isUnion {ds : List Descriptor} {sources : List (List (String × Json))}
    {m : OrderedMap Json} (h : IsUnion (·.other) ds.reverse m)
    (hothers : ds.map (·.other.entries) = sources.map unknownMembers) :
    Inherits sources m.entries where
  once := m.distinct
  keys := by
    have hkeys : ds.reverse.flatMap (·.other.keys) =
        (ds.map (·.other.entries)).reverse.flatMap (·.map Prod.fst) := by
      rw [← List.map_reverse, List.flatMap_map]
      rfl
    have hfilter : (sources.map unknownMembers).reverse.flatMap (·.map Prod.fst) =
        (sources.reverse.flatMap (·.map Prod.fst)).filter (· ∉ knownKeys) := by
      rw [← List.map_reverse, List.flatMap_map, List.filter_flatMap]
      exact List.flatMap_congr fun source _ => map_fst_unknownMembers source
    rw [← hfilter, ← hothers, ← hkeys]
    exact h.keys
  value key hkey := by
    have hlookup : ds.findSome? (fun d => d.other.get? key) =
        (ds.map (·.other.entries)).findSome? (·.lookup key) := by
      rw [List.findSome?_map]
      rfl
    have hsources : (sources.map unknownMembers).findSome? (·.lookup key) =
        sources.findSome? (·.lookup key) := by
      rw [List.findSome?_map]
      exact congrArg (sources.findSome? ·) (funext fun source => lookup_unknownMembers hkey source)
    rw [← hsources, ← hothers, ← hlookup, ← lastDeclared_reverse]
    exact h.value key

end Descriptor

/-- A descriptor that has been resolved is printed with known keys in front and behind them the
unknown keys of all documents of its chain, whose values are those of the nearest document, with
nothing expanded in them. -/
theorem inherits_of_resolve {t : FileTree} {cwd path : String} {c : Context} {d : Descriptor}
    {report : Report} (h : resolve t cwd path c = .ok (d, report)) :
    ∃ (sources : List (List (String × Json))) (known unknown : List (String × Json)),
      (∀ n, sources[n]? = Ancestry.sourceAt? t cwd path n) ∧
      (∀ source ∈ sources, (source.map Prod.fst).Nodup) ∧
      d.toJson = .object (known ++ unknown) ∧
      (∀ e ∈ known, e.1 ∈ knownKeys) ∧
      Inherits sources unknown := by
  obtain ⟨loaded, hload, hexpand⟩ : ∃ loaded, Ancestry.load t cwd path = .ok loaded ∧
      loaded.expandInPlace c = .ok (d, report) := by
    unfold resolve at h
    split at h
    next => cases h
    next loaded hload =>
      cases hexpand : loaded.expandInPlace c with
      | error e => rw [hexpand] at h; cases h
      | ok p =>
          rw [hexpand] at h
          exact ⟨loaded, hload, hexpand.trans (congrArg Except.ok (Except.ok.inj h))⟩
  obtain ⟨ds, m, hds, hm, rfl⟩ := Ancestry.exists_documents_of_load hload
  obtain ⟨sources, hsources, hdistinct, hothers⟩ := Ancestry.exists_sources_of_documents hds
  obtain ⟨known, hprint, hknown⟩ := exists_known_toJson d
  have hunion : IsUnion (·.other) ds.reverse m.other := by
    cases hrev : ds.reverse with
    | nil => rw [hrev] at hm; cases hm
    | cons first rest =>
        rw [hrev, mergeAll?_cons] at hm
        obtain rfl := Option.some.inj hm
        exact (precedence_foldl_merge first rest).other
  have hother : d.other = { m with ancestor := none }.other := other_of_expandInPlace hexpand
  refine ⟨sources, known, d.other.entries, hsources, hdistinct, hprint, hknown, ?_⟩
  rw [hother]
  exact inherits_of_isUnion hunion hothers

def annotatedChain : FileTree := ⟨[
  (["leaf.json"], .file (some
    ("\x7b\"zeta\": 1, \"extends\": \"./root.json\", \"alpha\": null, " ++
      "\"zeta\": \"$\x7blocalEnv:HOME\x7d\"\x7d"))),
  (["root.json"], .file (some
    "\x7b\"note\": [\"$localWorkspaceFolder\"], \"image\": \"alpine\", \"alpha\": true\x7d"))]⟩

def annotatedDescriptor : Descriptor :=
  { empty with
    selector := some (.image "alpine")
    other := .ofList [("note", .array [.string "$localWorkspaceFolder"]), ("alpha", .null),
      ("zeta", .string "$\x7blocalEnv:HOME\x7d")] }

def emptyHost : Context := Context.ofRoot "/w" fun _ => none

theorem resolve_annotatedChain : resolve annotatedChain "/" "/leaf.json" emptyHost =
    .ok (annotatedDescriptor.mapTemplates fun template => (Template.expand emptyHost template).text,
      Report.ofTemplates emptyHost annotatedDescriptor.templates) := by
  have hload : Ancestry.load annotatedChain "/" "/leaf.json" = .ok annotatedDescriptor := by
    have hread : (Ancestry.load annotatedChain "/" "/leaf.json").toOption =
        some annotatedDescriptor := by
      decide +kernel
    cases hloaded : Ancestry.load annotatedChain "/" "/leaf.json" with
    | error e => rw [hloaded] at hread; cases hread
    | ok d => rw [hloaded] at hread; exact congrArg Except.ok (Option.some.inj hread)
  have hexpand : annotatedDescriptor.expandInPlace emptyHost =
      annotatedDescriptor.expand emptyHost := rfl
  have hmissing : (Report.ofTemplates emptyHost annotatedDescriptor.templates).missing = [] := by
    decide
  rw [resolve, hload]
  simp only
  rw [hexpand, expand_eq, if_pos hmissing]
  rfl

theorem inherits_of_resolve_annotated :
    ∃ d report, resolve annotatedChain "/" "/leaf.json" emptyHost = .ok (d, report) ∧
      d.toJson = .object [("image", .string "alpine"),
        ("note", .array [.string "$localWorkspaceFolder"]), ("alpha", .null),
        ("zeta", .string "$\x7blocalEnv:HOME\x7d")] ∧
      ∃ (sources : List (List (String × Json))) (known unknown : List (String × Json)),
        (∀ n, sources[n]? = Ancestry.sourceAt? annotatedChain "/" "/leaf.json" n) ∧
        d.toJson = .object (known ++ unknown) ∧ Inherits sources unknown := by
  obtain ⟨sources, known, unknown, hsources, -, hprint, -, hinherits⟩ :=
    inherits_of_resolve resolve_annotatedChain
  exact ⟨_, _, resolve_annotatedChain, by decide +kernel, sources, known, unknown, hsources, hprint,
    hinherits⟩

end Devcontainer
