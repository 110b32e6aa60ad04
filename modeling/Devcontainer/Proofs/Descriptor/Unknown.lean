import Devcontainer.Proofs.Descriptor.Document

/-!
# Keys without a meaning

The members of a document whose keys mean nothing to a descriptor are kept aside as they stand, in
their order, and they are printed behind all other members.
-/

namespace Devcontainer.Descriptor

def knownKeys : List String :=
  Draft.fields.map Field.key

def unknownMembers (members : List (String × Json)) : List (String × Json) :=
  members.filter (·.1 ∉ knownKeys)

theorem field?_eq_none_iff {key : String} : Draft.record.field? key = none ↔ key ∉ knownKeys := by
  have halias : ∀ f ∈ Draft.fields, f.alias? = none := by decide +kernel
  have hanswers : ∀ f ∈ Draft.fields, (f.answersTo key = true ↔ f.key = key) := by
    intro f hf
    simp [Field.answersTo, halias f hf]
  unfold Record.field?
  rw [List.find?_eq_none, knownKeys, List.mem_map, not_exists]
  constructor
  · rintro h f ⟨hf, hkey⟩
    exact h f hf ((hanswers f hf).2 hkey)
  · intro h f hf hkey
    exact h f ⟨hf, (hanswers f hf).1 hkey⟩

namespace Draft

theorem preserves_other : ∀ f ∈ record.fields, ∀ m, f.Preserves (record.other · = m) := by
  simp only [record, fields, List.forall_mem_cons, List.not_mem_nil, false_imp_iff, implies_true,
    and_true]
  and_intros <;> exact fun m => Field.preserves_optional fun _ _ _ _ _ h => h

end Draft

theorem entries_other_of_ofJson {members : List (String × Json)} {d : Descriptor}
    (hnodup : (members.map Prod.fst).Nodup) (h : ofJson (.object members) = .ok d) :
    d.other.entries = unknownMembers members := by
  obtain ⟨_, draft, ⟨⟩, hread, hdraft⟩ := exists_draft_of_ofJson h
  obtain ⟨-, selector, rfl⟩ := eq_of_ofDraft hdraft
  have hfilter : (members.filter fun e => (Draft.record.field? e.1).isNone) =
      unknownMembers members := by
    refine List.filter_congr fun e _ => ?_
    rw [Bool.eq_iff_iff, Option.isNone_iff_eq_none, field?_eq_none_iff, decide_eq_true_iff]
  have hother : draft.other = .ofList (unknownMembers members) := by
    rw [← hfilter]
    exact Record.other_of_read Draft.record_keepsOther Draft.preserves_other rfl hread
  have hdistinct : ((unknownMembers members).map Prod.fst).Nodup :=
    hnodup.sublist (List.filter_sublist.map Prod.fst)
  show draft.other.entries = unknownMembers members
  rw [hother]
  exact OrderedMap.entries_insertAll_of_nodup hdistinct

/-- In print the unknown members stand behind the known ones. -/
theorem exists_known_toJson (d : Descriptor) :
    ∃ known, d.toJson = .object (known ++ d.other.entries) ∧ ∀ e ∈ known, e.1 ∈ knownKeys := by
  have hother : (Draft.ofDescriptor d).other = d.other :=
    congrArg Descriptor.other (toDescriptor_ofDescriptor d)
  refine ⟨Record.written Draft.fields (Draft.ofDescriptor d), ?_, fun e he => ?_⟩
  · rw [← hother]
    rfl
  · obtain ⟨f, hf, hwrite⟩ := List.mem_filterMap.1 he
    obtain ⟨v, -, rfl⟩ := Option.map_eq_some_iff.1 hwrite
    exact List.mem_map_of_mem hf

end Devcontainer.Descriptor
