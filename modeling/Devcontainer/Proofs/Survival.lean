import Devcontainer.Proofs.Ancestry

/-!
# What survives printing

A merged or loaded descriptor is read back from its own document, unless an overlay with an empty
Dockerfile as its selector has put a Dockerfile into the build of what is no Dockerfile container.
-/

namespace Devcontainer

open Descriptor

namespace Ancestry

theorem survives_load_iff {t : FileTree} {cwd path : String} {d : Descriptor}
    (h : load t cwd path = .ok d) : ∃ ds, documents t cwd [] path = .ok ds ∧
      (ofJson d.toJson = .ok d ↔ ¬ StrandsDockerfile ds.reverse) := by
  obtain ⟨ds, m, hds, hm, rfl⟩ := exists_documents_of_load h
  have haccepted : ∀ d ∈ ds.reverse, d.Accepted := fun d hd =>
    (accepted_of_documents hds).2 d (List.mem_reverse.1 hd)
  refine ⟨ds, hds, ?_⟩
  rw [← survives_mergeAll?_iff haccepted hm, ofJson_toJson_eq_ok_iff, ofJson_toJson_eq_ok_iff]
  -- neither property looks at the reference to the ancestor
  constructor
  · rintro ⟨hwell, hcons⟩
    exact ⟨⟨hwell.build, hwell.customizations, hwell.hostRequirements, hwell.other⟩, hcons⟩
  · rintro ⟨hwell, hcons⟩
    exact ⟨⟨hwell.build, hwell.customizations, hwell.hostRequirements, hwell.other⟩, hcons⟩

end Ancestry

namespace Descriptor

theorem survives_merge_iff {base upper : Descriptor} (hbase : base.Accepted)
    (hupper : upper.Accepted) : ofJson (base.merge upper).toJson = .ok (base.merge upper) ↔
      ¬ (upper.NamesEmptyDockerfile ∧ ¬ base.SelectsDockerfile) := by
  have hwell : (base.merge upper).WellFormed := wellFormed_merge hbase.wellFormed hupper.wellFormed
  rw [ofJson_toJson_eq_ok_iff, consistent_merge_iff hbase.consistent hupper.consistent]
  exact ⟨fun h => h.2, fun h => ⟨hwell, h⟩⟩

/-- Merging two descriptors, any list of them or a chain of documents gives a descriptor that is
read back from its document, and whose build agrees with its selector, exactly when no Dockerfile is
left behind. -/
theorem survives_merging_iff {base upper : Descriptor} (hbase : base.Accepted)
    (hupper : upper.Accepted) :
    ((ofJson (base.merge upper).toJson = .ok (base.merge upper) ↔
        ¬ (upper.NamesEmptyDockerfile ∧ ¬ base.SelectsDockerfile)) ∧
      ((base.merge upper).Consistent ↔
        ¬ (upper.NamesEmptyDockerfile ∧ ¬ base.SelectsDockerfile))) ∧
    (∀ ds : List Descriptor, (∀ d ∈ ds, d.Accepted) → ∃ m, mergeAll? (base :: ds) = some m ∧
      (ofJson m.toJson = .ok m ↔ ¬ StrandsDockerfile (base :: ds)) ∧
      (m.Consistent ↔ ¬ StrandsDockerfile (base :: ds))) ∧
    ∀ t cwd path d, Ancestry.load t cwd path = .ok d →
      ∃ ds, Ancestry.documents t cwd [] path = .ok ds ∧
        (ofJson d.toJson = .ok d ↔ ¬ StrandsDockerfile ds.reverse) := by
  refine ⟨⟨?_, ?_⟩, fun ds hds => ?_, fun t cwd path d h => ?_⟩
  · exact survives_merge_iff hbase hupper
  · exact consistent_merge_iff hbase.consistent hupper.consistent
  · have hall : ∀ d ∈ base :: ds, d.Accepted := List.forall_mem_cons.2 ⟨hbase, hds⟩
    have hm := mergeAll?_cons base ds
    exact ⟨_, hm, survives_mergeAll?_iff hall hm, consistent_mergeAll?_iff hall hm⟩
  · exact Ancestry.survives_load_iff h

def alpine : Descriptor := { empty with selector := some (.image "alpine") }

def emptyDockerfile : Descriptor :=
  { empty with
    selector := some (.dockerfile "")
    build := some { Build.empty with dockerfile := some "" } }

theorem accepted_alpine : alpine.Accepted := ⟨alpine.toJson, rfl⟩

theorem accepted_emptyDockerfile : emptyDockerfile.Accepted := ⟨emptyDockerfile.toJson, rfl⟩

def dockerfileOverImage : FileTree := ⟨[
  (["base.json"], .file (some "\x7b\"image\": \"alpine\"\x7d")),
  (["leaf.json"], .file (some
    "\x7b\"extends\": \"base.json\", \"build\": \x7b\"dockerfile\": \"\"\x7d\x7d"))]⟩

theorem survives_merging_alpine :
    emptyDockerfile.Accepted ∧ alpine.Accepted ∧
    (ofJson (emptyDockerfile.merge alpine).toJson = .ok (emptyDockerfile.merge alpine) ↔
      ¬ (alpine.NamesEmptyDockerfile ∧ ¬ emptyDockerfile.SelectsDockerfile)) ∧
    (∃ m, mergeAll? [emptyDockerfile, alpine, emptyDockerfile] = some m ∧
      (ofJson m.toJson = .ok m ↔ ¬ StrandsDockerfile [emptyDockerfile, alpine, emptyDockerfile])) ∧
    ∃ d, Ancestry.load dockerfileOverImage "/" "/leaf.json" = .ok d ∧
      ∃ ds, Ancestry.documents dockerfileOverImage "/" [] "/leaf.json" = .ok ds ∧
        (ofJson d.toJson = .ok d ↔ ¬ StrandsDockerfile ds.reverse) := by
  obtain ⟨⟨hpair, -⟩, hlist, hload⟩ := survives_merging_iff accepted_emptyDockerfile accepted_alpine
  have hall : ∀ d ∈ [alpine, emptyDockerfile], d.Accepted := by
    simp [accepted_alpine, accepted_emptyDockerfile]
  obtain ⟨m, hm, hsurvives, -⟩ := hlist [alpine, emptyDockerfile] hall
  have hok : (Ancestry.load dockerfileOverImage "/" "/leaf.json").toOption.isSome = true := by
    decide +kernel
  obtain ⟨d, hd⟩ := Option.isSome_iff_exists.1 hok
  have hd : Ancestry.load dockerfileOverImage "/" "/leaf.json" = .ok d := by
    cases h : Ancestry.load dockerfileOverImage "/" "/leaf.json" with
    | error e => rw [h] at hd; cases hd
    | ok d' => rw [h] at hd; exact congrArg Except.ok (Option.some.inj hd)
  exact ⟨accepted_emptyDockerfile, accepted_alpine, hpair, ⟨m, hm, hsurvives⟩, d, hd,
    hload _ _ _ _ hd⟩

/-- The image and the Dockerfile of an overlay that names none stand side by side, and the document
is refused. -/
theorem not_survives_emptyDockerfile :
    ¬ ∀ base upper : Descriptor, base.Accepted → upper.Accepted →
      ofJson (base.merge upper).toJson = .ok (base.merge upper) := by
  intro h
  have hrefused : ofJson (alpine.merge emptyDockerfile).toJson =
      .error (.manySelectors [.image, .dockerfile]) := rfl
  have hread := h alpine emptyDockerfile accepted_alpine accepted_emptyDockerfile
  rw [hrefused] at hread
  cases hread

end Descriptor

end Devcontainer
