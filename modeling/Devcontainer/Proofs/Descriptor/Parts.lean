import Devcontainer.Proofs.Record

/-!
# The records inside a descriptor

Mounts, the build and the requirements are given back as they were written. Of the build and of the
requirements this needs what every value out of a document has: the keys kept aside are none of the
record's own, and nothing that may be left out is null.
-/

namespace Devcontainer

open Codec

namespace Mount.Fields

theorem toJson_eq (f : Fields) : f.toJson = .object (record.write f) := by
  rcases f with ⟨_ | _, _ | _, _ | _, _ | _⟩ <;> rfl

def copies : List (Fields → Fields → Fields) := [
  fun f target => { target with kind := f.kind },
  fun f target => { target with source := f.source },
  fun f target => { target with target := f.target },
  fun f target => { target with readOnly := f.readOnly }]

theorem record_distinct : record.Distinct := by
  unfold Record.Distinct
  decide

theorem copied (f : Fields) : Record.Copied f record.fields copies record.empty := by
  obtain ⟨kind, source, target, readOnly⟩ := f
  refine ⟨?_, ?_, ?_, ?_, trivial⟩
  · exact Field.copies_optional (fun s _ => ⟨restores_string s, nofun⟩) (by cases kind <;> rfl)
  · exact Field.copies_optional (fun s _ => ⟨restores_string s, nofun⟩) (by cases source <;> rfl)
  · exact Field.copies_optional (fun s _ => ⟨restores_string s, nofun⟩) (by cases target <;> rfl)
  · apply Field.copies_withAlias
    exact Field.copies_optional (fun b _ => ⟨restores_bool b, nofun⟩) (by cases readOnly <;> rfl)

theorem read_write (f : Fields) : record.read (record.write f) = .ok f := by
  have hseen : ∀ g ∈ record.fields, g.key ∉ ([] : List String) := fun _ _ => List.not_mem_nil
  obtain ⟨seen, h⟩ := Record.readMembers_written (fun g hg => Record.field?_key record_distinct hg)
    record_distinct (copied f) hseen []
  exact h

end Mount.Fields

namespace Codec

theorem restores_mount (spec : Mount.Spec) : mount.Restores spec := by
  cases spec with
  | text s => rfl
  | fields f =>
      show mount.read f.toJson = .ok (.fields f)
      rw [Mount.Fields.toJson_eq]
      simp only [mount, Mount.Fields.read_write]
      rfl

end Codec

namespace Build

/-- The keys kept aside are none of a build's own. -/
def WellFormed (b : Build) : Prop := record.Sound b

def copies : List (Build → Build → Build) := [
  fun b target => { target with dockerfile := b.dockerfile },
  fun b target => { target with context := b.context },
  fun b target => { target with args := b.args },
  fun b target => { target with target := b.target },
  fun b target => { target with cacheFrom := b.cacheFrom }]

theorem record_distinct : record.Distinct := by
  unfold Record.Distinct
  decide

theorem record_keepsOther : record.KeepsOther := ⟨fun _ _ => rfl, fun _ _ _ => rfl, fun _ => rfl⟩

theorem oneOrManyTexts_write_ne_null (c : OneOrMany) : oneOrManyTexts.write c ≠ .null := by
  cases c <;> nofun

theorem copies_args {b target : Build} (hargs : target.args = .empty) :
    argsField.Copies (fun b target => { target with args := b.args }) b target := by
  have hread : (Codec.map .string).read ((Codec.map .string).write b.args) = .ok b.args :=
    restores_map fun e _ => restores_string e.2
  unfold Field.Copies argsField
  simp only
  split
  next h =>
    split at h
    next he => rw [OrderedMap.eq_empty_of_isEmpty he, ← hargs]
    next => cases h
  next v h =>
    split at h
    next => cases h
    next =>
      obtain rfl := Option.some.inj h
      exact ⟨_, by rw [hread]; rfl, rfl⟩

theorem copied (b : Build) : Record.Copied b record.fields copies record.empty := by
  refine ⟨?_, ?_, ?_, ?_, ?_, trivial⟩
  · apply Field.copies_withAlias
    exact Field.copies_optional (fun s _ => ⟨restores_string s, nofun⟩)
      (by cases b.dockerfile <;> rfl)
  · exact Field.copies_optional (fun s _ => ⟨restores_string s, nofun⟩)
      (by cases b.context <;> rfl)
  · exact copies_args rfl
  · exact Field.copies_optional (fun s _ => ⟨restores_string s, nofun⟩)
      (by cases b.target <;> rfl)
  · exact Field.copies_optional
      (fun c _ => ⟨restores_oneOrManyTexts c, oneOrManyTexts_write_ne_null c⟩)
      (by cases b.cacheFrom <;> rfl)

theorem restores_codec {b : Build} (h : b.WellFormed) : (record.codec .build).Restores b :=
  Record.read_write record_distinct record_keepsOther h (copied b) rfl

theorem argsField_preserves {P : Build → Prop} (h : ∀ args b, P b → P { b with args }) :
    argsField.Preserves P := by
  intro v change hread b hb
  obtain ⟨args, -, rfl⟩ := map_eq_ok_iff.1 hread
  exact h args b hb

theorem preserves_other : ∀ f ∈ record.fields, ∀ m, f.Preserves (record.other · = m) := by
  simp only [record, List.forall_mem_cons, List.not_mem_nil, false_imp_iff, implies_true, and_true]
  refine ⟨fun m => ?_, fun m => ?_, fun m => ?_, fun m => ?_, fun m => ?_⟩
  · apply Field.preserves_withAlias
    exact Field.preserves_optional fun _ _ _ _ _ h => h
  · exact Field.preserves_optional fun _ _ _ _ _ h => h
  · exact argsField_preserves fun _ _ h => h
  · exact Field.preserves_optional fun _ _ _ _ _ h => h
  · exact Field.preserves_optional fun _ _ _ _ _ h => h

theorem mem_other_of_read {members : List (String × Json)} {b : Build}
    (h : record.read members = .ok b) {e : String × Json} (he : e ∈ b.other.entries) :
    e ∈ members ∧ record.field? e.1 = none :=
  Record.mem_other_of_read record_keepsOther preserves_other rfl h he

theorem wellFormed_of_read {members : List (String × Json)} {b : Build}
    (h : record.read members = .ok b) : b.WellFormed := by
  intro key hkey
  obtain ⟨e, he, rfl⟩ := List.mem_map.1 hkey
  exact (mem_other_of_read h he).2

end Build

namespace HostRequirements

structure WellFormed (h : HostRequirements) : Prop where
  gpu : h.gpu ≠ some .null
  other : record.Sound h

def copies : List (HostRequirements → HostRequirements → HostRequirements) := [
  fun h target => { target with cpus := h.cpus },
  fun h target => { target with memory := h.memory },
  fun h target => { target with storage := h.storage },
  fun h target => { target with gpu := h.gpu }]

theorem record_distinct : record.Distinct := by
  unfold Record.Distinct
  decide

theorem record_keepsOther : record.KeepsOther := ⟨fun _ _ => rfl, fun _ _ _ => rfl, fun _ => rfl⟩

theorem amount_write_ne_null (a : Amount) : amount.write a ≠ .null := by
  cases a <;> nofun

theorem copied {h : HostRequirements} (hgpu : h.gpu ≠ some .null) :
    Record.Copied h record.fields copies record.empty := by
  refine ⟨?_, ?_, ?_, ?_, trivial⟩
  · exact Field.copies_optional (fun a _ => ⟨restores_amount a, amount_write_ne_null a⟩)
      (by cases h.cpus <;> rfl)
  · exact Field.copies_optional (fun a _ => ⟨restores_amount a, amount_write_ne_null a⟩)
      (by cases h.memory <;> rfl)
  · exact Field.copies_optional (fun a _ => ⟨restores_amount a, amount_write_ne_null a⟩)
      (by cases h.storage <;> rfl)
  · refine Field.copies_optional (fun v hv => ⟨restores_json v, ?_⟩) (by cases h.gpu <;> rfl)
    rintro rfl
    exact hgpu hv

theorem restores_codec {h : HostRequirements} (hwell : h.WellFormed) : codec.Restores h :=
  Record.read_write record_distinct record_keepsOther hwell.other (copied hwell.gpu) rfl

theorem wellFormed_of_read {members : List (String × Json)} {h : HostRequirements}
    (hread : record.read members = .ok h) : h.WellFormed := by
  refine Record.read_induction (P := WellFormed) ?_ ?_ ?_ hread
  · constructor
    · intro hgpu
      cases hgpu
    · intro key hkey
      cases hkey
  · simp only [record, List.forall_mem_cons, List.not_mem_nil, false_imp_iff, implies_true,
      and_true]
    refine ⟨?_, ?_, ?_, ?_⟩
    · exact Field.preserves_optional fun _ _ _ _ _ hr => ⟨hr.gpu, hr.other⟩
    · exact Field.preserves_optional fun _ _ _ _ _ hr => ⟨hr.gpu, hr.other⟩
    · exact Field.preserves_optional fun _ _ _ _ _ hr => ⟨hr.gpu, hr.other⟩
    · refine Field.preserves_optional fun v a hv ha r hr => ⟨?_, hr.other⟩
      intro hnull
      have hva : v = a := Except.ok.inj ha
      exact hv (hva.trans (Option.some.inj hnull))
  · intro key v r hkey hr
    exact ⟨hr.gpu, Record.sound_setOther_insert record_keepsOther hkey hr.other⟩

end HostRequirements

end Devcontainer
