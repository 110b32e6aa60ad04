import Devcontainer.Json.Merge
import Devcontainer.Proofs.Document

/-!
# What a merge of JSON keeps

A leaf is a value that is no object; it stands at the end of a path of keys. A merge has the leaves of
the overlay, and of the base those in whose place the overlay has nothing and on whose way it has no
leaf of its own. So a second merge with the same overlay has nothing left to change.
-/

namespace Devcontainer

theorem Entries.put_of_lookup_eq {α : Type} {key : String} {value : α}
    {entries : List (String × α)} (h : entries.lookup key = some value) :
    put key value entries = entries := by
  induction entries with
  | nil => cases h
  | cons e rest ih =>
      obtain ⟨k, v⟩ := e
      rw [lookup_cons_eq_ite] at h
      rw [put]
      by_cases hk : key = k
      · rw [if_pos hk] at h
        obtain rfl := Option.some.inj h
        rw [if_pos hk.symm, hk]
      · rw [if_neg hk] at h
        rw [if_neg (Ne.symm hk), ih h]

theorem lookup_of_mem {α : Type} {e : String × α} {entries : List (String × α)}
    (h : (entries.map Prod.fst).Nodup) (he : e ∈ entries) : entries.lookup e.1 = some e.2 := by
  induction entries with
  | nil => cases he
  | cons first rest ih =>
      obtain ⟨hfirst, hrest⟩ := List.nodup_cons.1 h
      rw [lookup_cons_eq_ite]
      rcases List.mem_cons.1 he with rfl | he
      · exact if_pos rfl
      · have hne : e.1 ≠ first.1 := fun hsame => hfirst (hsame ▸ List.mem_map_of_mem he)
        rw [if_neg hne, ih hrest he]

theorem mem_of_lookup {α : Type} {key : String} {value : α} {entries : List (String × α)}
    (h : entries.lookup key = some value) : (key, value) ∈ entries := by
  obtain ⟨before, after, rfl, -⟩ := List.lookup_eq_some_iff.1 h
  exact List.mem_append_right _ (List.mem_cons_self ..)

namespace Json

variable {base upper : List (String × Json)}

/-! ## Members -/

/-- What the overlay's value of a key becomes, given what the base has there. -/
def mergedValue (existing : Option Json) (value : Json) : Json :=
  existing.elim value fun existing => merge existing value

theorem mergeMembers_cons (key : String) (value : Json) :
    mergeMembers base ((key, value) :: upper) =
      mergeMembers (Entries.put key (mergedValue (base.lookup key) value) base) upper := by
  rw [mergeMembers, mergedValue]
  cases base.lookup key <;> rfl

theorem map_fst_mergeMembers (h : (upper.map Prod.fst).Nodup) :
    (mergeMembers base upper).map Prod.fst =
      base.map Prod.fst ++ (upper.map Prod.fst).filter (· ∉ base.map Prod.fst) := by
  induction upper generalizing base with
  | nil => simp [mergeMembers]
  | cons e upper ih =>
      obtain ⟨key, value⟩ := e
      obtain ⟨hkey, hupper⟩ := List.nodup_cons.1 h
      rw [mergeMembers_cons, ih hupper, Entries.map_fst_put, List.map_cons]
      by_cases hmem : key ∈ base.map Prod.fst
      · rw [if_pos hmem, List.filter_cons_of_neg (by simpa using hmem)]
      · -- the key has been put behind the base, and the overlay does not have it again
        have hfilter : (upper.map Prod.fst).filter (· ∉ base.map Prod.fst ++ [key]) =
            (upper.map Prod.fst).filter (· ∉ base.map Prod.fst) := by
          refine List.filter_congr fun other hother => ?_
          have hne : other ≠ key := fun hsame => hkey (hsame ▸ hother)
          simp [hne]
        rw [if_neg hmem, hfilter, List.filter_cons_of_pos (by simpa using hmem), List.append_assoc,
          List.singleton_append]

theorem nodup_mergeMembers (h : (base.map Prod.fst).Nodup) :
    ((mergeMembers base upper).map Prod.fst).Nodup := by
  induction upper generalizing base with
  | nil => exact h
  | cons e upper ih =>
      rw [mergeMembers_cons]
      exact ih (Entries.nodup_put _ _ h)

theorem lookup_mergeMembers (h : (upper.map Prod.fst).Nodup) (key : String) :
    (mergeMembers base upper).lookup key =
      ((upper.lookup key).map (mergedValue (base.lookup key))).or (base.lookup key) := by
  induction upper generalizing base with
  | nil => rfl
  | cons e upper ih =>
      obtain ⟨k, value⟩ := e
      obtain ⟨hk, hupper⟩ := List.nodup_cons.1 h
      rw [mergeMembers_cons, ih hupper, lookup_cons_eq_ite]
      by_cases hkey : key = k
      · rw [if_pos hkey, hkey, lookup_eq_none_of_not_mem hk, Entries.lookup_put_self]
        rfl
      · rw [if_neg hkey, Entries.lookup_put_ne _ _ hkey]

/-! ## Merging again -/

theorem mergeMembers_eq_self
    (h : ∀ e ∈ upper, ∃ existing, base.lookup e.1 = some existing ∧ merge existing e.2 = existing) :
    mergeMembers base upper = base := by
  induction upper with
  | nil => rfl
  | cons e upper ih =>
      obtain ⟨existing, hlookup, hmerge⟩ := h e (List.mem_cons_self ..)
      have hvalue : mergedValue (base.lookup e.1) e.2 = existing := by
        rw [hlookup]
        exact hmerge
      rw [mergeMembers_cons, hvalue, Entries.put_of_lookup_eq hlookup]
      exact ih fun e he => h e (List.mem_cons_of_mem _ he)

mutual

theorem merge_self : (v : Json) → v.DistinctKeys → merge v v = v
  | .object members, h => by
      rw [merge, mergeMembers_eq_self]
      intro e he
      exact ⟨e.2, lookup_of_mem h.1 he, merge_self_of_mem members h.2 e he⟩
  | .null, _ | .bool _, _ | .number _, _ | .string _, _ | .array _, _ => rfl

theorem merge_self_of_mem : (members : List (String × Json)) → DistinctKeysMembers members →
    ∀ e ∈ members, merge e.2 e.2 = e.2
  | [], _, _, he => absurd he List.not_mem_nil
  | (_, value) :: rest, h, e, he => by
      have hvalue : merge value value = value := merge_self value h.1
      rcases List.mem_cons.1 he with rfl | he
      · exact hvalue
      · exact merge_self_of_mem rest h.2 e he

end

theorem merge_merge_of_kind {base upper : Json} (h : upper.kind ≠ .object) :
    merge (merge base upper) upper = merge base upper := by
  rw [merge_of_not_object (Or.inr h), merge_of_not_object (Or.inr h)]

mutual

theorem merge_merge_self : (upper : Json) → upper.DistinctKeys →
    ∀ base, merge (merge base upper) upper = merge base upper
  | .object members, h, .object base => by
      rw [merge, merge, mergeMembers_eq_self]
      intro e he
      refine ⟨mergedValue (base.lookup e.1) e.2, ?_, ?_⟩
      · rw [lookup_mergeMembers h.1, lookup_of_mem h.1 he]
        rfl
      · cases base.lookup e.1 with
        | none => exact merge_self_of_mem members h.2 e he
        | some existing => exact merge_merge_self_of_mem members h.2 e he existing
  | .object members, h, .null | .object members, h, .bool _ | .object members, h, .number _
  | .object members, h, .string _ | .object members, h, .array _ => merge_self (.object members) h
  | .null, _, _ | .bool _, _, _ | .number _, _, _ | .string _, _, _ | .array _, _, _ =>
    merge_merge_of_kind nofun

theorem merge_merge_self_of_mem : (members : List (String × Json)) →
    DistinctKeysMembers members → ∀ e ∈ members, ∀ base,
      merge (merge base e.2) e.2 = merge base e.2
  | [], _, _, he => absurd he List.not_mem_nil
  | (_, value) :: rest, h, e, he => by
      have hvalue : ∀ base, merge (merge base value) value = merge base value :=
        merge_merge_self value h.1
      rcases List.mem_cons.1 he with rfl | he
      · exact hvalue
      · exact merge_merge_self_of_mem rest h.2 e he

end

/-! ## Leaves -/

def valueAt? : List String → Json → Option Json
  | [], v => some v
  | key :: path, .object members => (members.lookup key).bind (valueAt? path)
  | _ :: _, _ => none

/-- Whether the value has only objects on the way to the end of a path, as far as it goes along. -/
def OpenAlong (v : Json) (path : List String) : Prop :=
  ∀ start, start <+: path → start ≠ path → ∀ w, v.valueAt? start = some w → w.kind = .object

theorem not_openAlong_cons {v : Json} (h : v.kind ≠ .object) (key : String) (path : List String) :
    ¬ v.OpenAlong (key :: path) := fun hopen =>
  h (hopen [] List.nil_prefix (List.cons_ne_nil key path).symm v rfl)

theorem openAlong_cons {members : List (String × Json)} {key : String} {path : List String} :
    (object members).OpenAlong (key :: path) ↔
      ∀ v ∈ members.lookup key, v.OpenAlong path := by
  constructor
  · intro h v hv start hstart hne w hw
    refine h (key :: start) ((List.prefix_cons_inj key).2 hstart) ?_ w ?_
    · exact fun hsame => hne (List.cons.inj hsame).2
    · rw [valueAt?, Option.mem_def.1 hv]
      exact hw
  · intro h start hstart hne w hw
    cases start with
    | nil => exact congrArg kind (Option.some.inj hw).symm
    | cons k start =>
        obtain ⟨rfl, htail⟩ := List.cons_prefix_cons.1 hstart
        obtain ⟨v, hv, hw⟩ := Option.bind_eq_some_iff.1 hw
        exact h v hv start htail (fun hsame => hne (congrArg _ hsame)) w hw

theorem valueAt?_cons_of_kind {v : Json} (h : v.kind ≠ .object) (key : String)
    (path : List String) : v.valueAt? (key :: path) = none := by
  cases v with
  | object members => exact absurd rfl h
  | _ => rfl

theorem objects_or_not (base upper : Json) :
    (∃ members members', base = .object members ∧ upper = .object members') ∨
      (base.kind ≠ .object ∨ upper.kind ≠ .object) := by
  cases base with
  | object members =>
      cases upper with
      | object members' => exact .inl ⟨members, members', rfl, rfl⟩
      | _ => exact .inr (.inr nofun)
  | _ => exact .inr (.inl nofun)

theorem valueAt?_merge_iff {upper : Json} (h : upper.DistinctKeys) {leaf : Json}
    (hleaf : leaf.kind ≠ .object) (base : Json) (path : List String) :
    (merge base upper).valueAt? path = some leaf ↔ upper.valueAt? path = some leaf ∨
      base.valueAt? path = some leaf ∧ upper.valueAt? path = none ∧ upper.OpenAlong path := by
  have hobject : ∀ members, object members ≠ leaf := by
    rintro members rfl
    exact hleaf rfl
  induction path generalizing base upper with
  | nil =>
      rcases objects_or_not base upper with ⟨members, members', rfl, rfl⟩ | hkind
      · simp [merge, valueAt?, hobject]
      · simp [merge_of_not_object hkind, valueAt?]
  | cons key path ih =>
      rcases objects_or_not base upper with ⟨members, members', rfl, rfl⟩ | hkind
      · rw [openAlong_cons, merge, valueAt?, valueAt?, valueAt?, lookup_mergeMembers h.1]
        cases hupper : members'.lookup key with
        | none => simp
        | some value =>
            cases hbase : members.lookup key with
            | none => simp [mergedValue]
            | some existing =>
                have hvalue : value.DistinctKeys :=
                  distinctKeysMembers_iff.1 h.2 (key, value) (mem_of_lookup hupper)
                simpa [mergedValue] using ih hvalue existing
      · have hbase : ¬ (base.valueAt? (key :: path) = some leaf ∧
            upper.valueAt? (key :: path) = none ∧ upper.OpenAlong (key :: path)) := by
          rintro ⟨hbase, -, hopen⟩
          rcases hkind with hkind | hkind
          · rw [valueAt?_cons_of_kind hkind] at hbase
            cases hbase
          · exact not_openAlong_cons hkind key path hopen
        rw [merge_of_not_object hkind, or_iff_left hbase]

theorem valueAt?_merge_of_objects {base upper : Json} (hbase : base.DistinctKeys)
    (hupper : upper.DistinctKeys) {path : List String} {members members' : List (String × Json)}
    (h : base.valueAt? path = some (.object members))
    (h' : upper.valueAt? path = some (.object members')) :
    ∃ merged, (merge base upper).valueAt? path = some (.object merged) ∧
      merged.map Prod.fst =
        members.map Prod.fst ++ (members'.map Prod.fst).filter (· ∉ members.map Prod.fst) ∧
      (merged.map Prod.fst).Nodup := by
  induction path generalizing base upper with
  | nil =>
      obtain rfl := Option.some.inj h
      obtain rfl := Option.some.inj h'
      exact ⟨_, rfl, map_fst_mergeMembers hupper.1, nodup_mergeMembers hbase.1⟩
  | cons key path ih =>
      rcases objects_or_not base upper with ⟨bs, us, rfl, rfl⟩ | hkind
      · rw [valueAt?] at h h'
        obtain ⟨existing, hexisting, h⟩ := Option.bind_eq_some_iff.1 h
        obtain ⟨value, hvalue, h'⟩ := Option.bind_eq_some_iff.1 h'
        have hdistinct : existing.DistinctKeys :=
          distinctKeysMembers_iff.1 hbase.2 (key, existing) (mem_of_lookup hexisting)
        have hdistinct' : value.DistinctKeys :=
          distinctKeysMembers_iff.1 hupper.2 (key, value) (mem_of_lookup hvalue)
        rw [merge, valueAt?, lookup_mergeMembers hupper.1, hexisting, hvalue]
        exact ih hdistinct hdistinct' h h'
      · rcases hkind with hkind | hkind
        · rw [valueAt?_cons_of_kind hkind] at h
          cases h
        · rw [valueAt?_cons_of_kind hkind] at h'
          cases h'

/-- A merge has exactly the leaves that the overlay has, or that the base has and the overlay neither
replaces nor cuts off. Where it joins two objects, the keys of the base stand before the new ones,
each once. -/
theorem leaves_merge {base upper : Json} (hbase : base.DistinctKeys) (hupper : upper.DistinctKeys) :
    (∀ path leaf, leaf.kind ≠ .object →
      ((merge base upper).valueAt? path = some leaf ↔ upper.valueAt? path = some leaf ∨
        base.valueAt? path = some leaf ∧ upper.valueAt? path = none ∧ upper.OpenAlong path)) ∧
    ∀ path members members', base.valueAt? path = some (.object members) →
      upper.valueAt? path = some (.object members') →
      ∃ merged, (merge base upper).valueAt? path = some (.object merged) ∧
        merged.map Prod.fst =
          members.map Prod.fst ++ (members'.map Prod.fst).filter (· ∉ members.map Prod.fst) ∧
        (merged.map Prod.fst).Nodup :=
  ⟨fun path _ hleaf => valueAt?_merge_iff hupper hleaf base path,
    fun _ _ _ => valueAt?_merge_of_objects hbase hupper⟩

def mixedBase : Json := .object [
  ("a", .object [("x", .bool true), ("y", .null), ("z", .object [])]), ("b", .string "base")]

def mixedUpper : Json := .object [
  ("b", .object []), ("n", .null), ("a", .object [("w", .null), ("x", .object []), ("z", .null)])]

theorem leaves_merge_mixed :
    (mixedBase.DistinctKeys ∧ mixedUpper.DistinctKeys) ∧
    (merge mixedBase mixedUpper).valueAt? ["a", "y"] = some .null ∧
    (merge mixedBase mixedUpper).valueAt? ["b"] ≠ some (.string "base") ∧
    ∃ merged, (merge mixedBase mixedUpper).valueAt? ["a"] = some (.object merged) ∧
      merged.map Prod.fst = ["x", "y", "z", "w"] := by
  have hbase : mixedBase.DistinctKeys := by simp [mixedBase, DistinctKeys, DistinctKeysMembers]
  have hupper : mixedUpper.DistinctKeys := by simp [mixedUpper, DistinctKeys, DistinctKeysMembers]
  have hopen : mixedUpper.OpenAlong ["a", "y"] := by
    rw [mixedUpper, openAlong_cons]
    intro v hv
    obtain rfl := Option.some.inj hv
    rw [openAlong_cons]
    intro v hv
    cases hv
  obtain ⟨hleaves, hkeys⟩ := leaves_merge hbase hupper
  have hnull : (merge mixedBase mixedUpper).valueAt? ["a", "y"] = some .null :=
    (hleaves _ .null (by decide)).2 (.inr ⟨rfl, rfl, hopen⟩)
  refine ⟨⟨hbase, hupper⟩, hnull, fun hlost => ?_, ?_⟩
  · rcases (hleaves _ (.string "base") (by decide)).1 hlost with hlost | ⟨-, hlost, -⟩ <;>
      cases hlost
  · obtain ⟨merged, hmerged, hnames, -⟩ := hkeys ["a"] _ _ rfl rfl
    exact ⟨merged, hmerged, hnames⟩

end Json

end Devcontainer
