import Devcontainer.Proofs.Descriptor.Document
import Devcontainer.Proofs.Document.Print
import Devcontainer.Proofs.Record.Legible

/-!
# Printed descriptors are read back

A descriptor out of a document keeps values that a document can hold, and so it is printed as one.
The document in print gives the descriptor again, unless a string in it has a separator of lines or
of paragraphs: these are printed as they are and not read.
-/

namespace Devcontainer

open Codec Json

/-! ## The records inside a descriptor -/

theorem Mount.Fields.legible_toJson (f : Mount.Fields) : f.toJson.Legible := by
  rw [toJson_eq]
  refine Record.legible_write record_distinct nofun ?_ nofun
  simp only [record, List.forall_mem_cons, List.not_mem_nil, false_imp_iff, implies_true, and_true]
  exact ⟨
    Field.legible_optional fun s _ => legible_string s,
    Field.legible_optional fun s _ => legible_string s,
    Field.legible_optional fun s _ => legible_string s,
    Field.legible_withAlias (Field.legible_optional fun b _ => legible_bool b)⟩

theorem Codec.legible_mount (spec : Mount.Spec) : (mount.write spec).Legible := by
  cases spec with
  | text s => exact legible_string s
  | fields f => exact f.legible_toJson

namespace Build

def Legible (b : Build) : Prop :=
  ∀ e ∈ b.other.entries, e.2.Legible

theorem legible_of_read {members : List (String × Json)} (hmembers : ∀ e ∈ members, e.2.Legible)
    {b : Build} (h : record.read members = .ok b) : b.Legible := fun e he =>
  hmembers e (mem_other_of_read h he).1

theorem legible_args (b : Build) : argsField.Legible b := by
  intro v hv
  simp only [argsField] at hv
  split at hv
  next => cases hv
  next =>
    obtain rfl := Option.some.inj hv
    exact legible_map fun e _ => legible_string e.2

theorem legible_write {b : Build} (hwell : b.WellFormed) (h : b.Legible) :
    (object (record.write b)).Legible := by
  refine Record.legible_write record_distinct hwell ?_ h
  simp only [record, List.forall_mem_cons, List.not_mem_nil, false_imp_iff, implies_true, and_true]
  exact ⟨
    Field.legible_withAlias (Field.legible_optional fun s _ => legible_string s),
    Field.legible_optional fun s _ => legible_string s,
    legible_args b,
    Field.legible_optional fun s _ => legible_string s,
    Field.legible_optional fun c _ => legible_oneOrManyTexts c⟩

end Build

namespace HostRequirements

structure Legible (h : HostRequirements) : Prop where
  cpus : ∀ a, h.cpus = some a → a.toJson.Legible
  memory : ∀ a, h.memory = some a → a.toJson.Legible
  storage : ∀ a, h.storage = some a → a.toJson.Legible
  gpu : ∀ v, h.gpu = some v → v.Legible
  other : ∀ e ∈ h.other.entries, e.2.Legible

theorem legible_of_read {members : List (String × Json)} (hmembers : ∀ e ∈ members, e.2.Legible)
    {r : HostRequirements} (h : record.read members = .ok r) : r.Legible := by
  refine Record.read_induction_from (P := Legible) ?_ ?_ ?_ hmembers h
  · exact ⟨nofun, nofun, nofun, nofun, nofun⟩
  · simp only [record, List.forall_mem_cons, List.not_mem_nil, false_imp_iff, implies_true,
      and_true]
    refine ⟨?_, ?_, ?_, ?_⟩
    · refine Field.preservesFrom_optional fun v a hv _ ha r hr => { hr with cpus := ?_ }
      rintro _ ⟨⟩
      exact legible_amount hv ha
    · refine Field.preservesFrom_optional fun v a hv _ ha r hr => { hr with memory := ?_ }
      rintro _ ⟨⟩
      exact legible_amount hv ha
    · refine Field.preservesFrom_optional fun v a hv _ ha r hr => { hr with storage := ?_ }
      rintro _ ⟨⟩
      exact legible_amount hv ha
    · refine Field.preservesFrom_optional fun v a hv _ ha r hr => { hr with gpu := ?_ }
      rintro _ ⟨⟩
      exact Except.ok.inj ha ▸ hv
  · intro key v r hv _ hr
    exact { hr with other := OrderedMap.forall_mem_insert hr.other hv }

theorem legible_write {r : HostRequirements} (hwell : r.WellFormed) (h : r.Legible) :
    (object (record.write r)).Legible := by
  refine Record.legible_write record_distinct hwell.other ?_ h.other
  simp only [record, List.forall_mem_cons, List.not_mem_nil, false_imp_iff, implies_true, and_true]
  exact ⟨Field.legible_optional h.cpus, Field.legible_optional h.memory,
    Field.legible_optional h.storage, Field.legible_optional h.gpu⟩

end HostRequirements

/-! ## Descriptors -/

namespace Descriptor

/-- What a descriptor keeps unread is what a document can hold. -/
structure Legible (d : Descriptor) : Prop where
  build : ∀ b, d.build = some b → b.Legible
  hooks : ∀ hook c, d.hooks.get hook = some c → c.toJson.Legible
  features : ∀ e ∈ d.features.entries, e.2.Legible
  customizations : ∀ v, d.customizations = some v → v.Legible
  hostRequirements : ∀ r, d.hostRequirements = some r → r.Legible
  other : ∀ e ∈ d.other.entries, e.2.Legible

namespace Draft

theorem legible_of_read {members : List (String × Json)} (hmembers : ∀ e ∈ members, e.2.Legible)
    {d : Draft} (h : record.read members = .ok d) : d.toDescriptor.Legible := by
  refine read_induction (P := Legible) ?_ ⟨nofun, nofun, nofun, nofun, nofun, nofun⟩
    ?_ ?_ ?_ ?_ ?_ ?_ hmembers h
  · intro d d' hkept hd
    simp only [kept, Prod.mk.injEq] at hkept
    obtain ⟨hbuild, hhooks, hfeatures, hcustom, hhost, hother⟩ := hkept
    exact ⟨hbuild ▸ hd.build, hhooks ▸ hd.hooks, hfeatures ▸ hd.features,
      hcustom ▸ hd.customizations, hhost ▸ hd.hostRequirements, hother ▸ hd.other⟩
  · intro members b hv hread d hd
    refine { hd with build := ?_ }
    rintro _ ⟨⟩
    exact Build.legible_of_read (legible_object_iff.1 hv).2 hread
  · intro v hook c hv hc d hd
    refine { hd with hooks := fun other c' hc' => ?_ }
    have hget : (if other = hook then some c else d.hooks.get other) = some c' := hc'
    split at hget
    next =>
      obtain rfl := Option.some.inj hget
      exact legible_command hv hc
    next => exact hd.hooks other c' hget
  · intro v m hv hm d hd
    exact { hd with features := legible_of_read_map_json hv hm }
  · intro v hv _ d hd
    refine { hd with customizations := ?_ }
    rintro _ ⟨⟩
    exact hv
  · intro members r hv hread d hd
    refine { hd with hostRequirements := ?_ }
    rintro _ ⟨⟩
    exact HostRequirements.legible_of_read (legible_object_iff.1 hv).2 hread
  · intro key v hv _ d hd
    exact { hd with other := OrderedMap.forall_mem_insert hd.other hv }

theorem legible_write {d : Draft} (hwell : d.toDescriptor.WellFormed)
    (h : d.toDescriptor.Legible) : (object (record.write d)).Legible := by
  have hstring : ∀ s : String, (Codec.string.write s).Legible := legible_string
  have hbool : ∀ b : Bool, (Codec.bool.write b).Legible := legible_bool
  refine Record.legible_write record_distinct hwell.other ?_ h.other
  simp only [record, fields, List.forall_mem_cons, List.not_mem_nil, false_imp_iff, implies_true,
    and_true]
  exact ⟨
    Field.legible_optional fun s _ => hstring s,
    Field.legible_optional fun s _ => hstring s,
    Field.legible_optional fun s _ => hstring s,
    Field.legible_optional fun s _ => hstring s,
    Field.legible_optional fun b hb => Build.legible_write (hwell.build b hb) (h.build b hb),
    Field.legible_optional fun ss _ => legible_list fun s _ => hstring s,
    Field.legible_optional fun s _ => hstring s,
    Field.legible_omitted (legible_texts _),
    Field.legible_optional fun s _ => hstring s,
    Field.legible_optional fun s _ => hstring s,
    Field.legible_omitted (legible_map fun e _ => hstring e.2),
    Field.legible_omitted (legible_map fun e _ => legible_nullable fun s _ => hstring s),
    Field.legible_optional fun s _ => hstring s,
    Field.legible_optional fun s _ => hstring s,
    Field.legible_omitted (legible_list fun p _ => legible_port p),
    Field.legible_omitted (legible_list fun p _ => legible_port p),
    Field.legible_optional fun ss _ => legible_texts ss,
    Field.legible_optional (h.hooks .onInitialize),
    Field.legible_optional (h.hooks .onCreate),
    Field.legible_optional (h.hooks .onUpdateContent),
    Field.legible_optional (h.hooks .postCreate),
    Field.legible_optional (h.hooks .postStart),
    Field.legible_optional (h.hooks .postAttach),
    Field.legible_omitted (legible_list fun m _ => legible_mount m),
    Field.legible_omitted (legible_texts _),
    Field.legible_omitted (legible_texts _),
    Field.legible_optional fun b _ => hbool b,
    Field.legible_optional fun b _ => hbool b,
    Field.legible_omitted (legible_map h.features),
    Field.legible_optional h.customizations,
    Field.legible_optional fun r hr =>
      HostRequirements.legible_write (hwell.hostRequirements r hr) (h.hostRequirements r hr)⟩

end Draft

theorem legible_of_ofJson {v : Json} (hv : v.Legible) {d : Descriptor} (h : ofJson v = .ok d) :
    d.Legible := by
  obtain ⟨members, draft, rfl, hread, hdraft⟩ := exists_draft_of_ofJson h
  obtain ⟨-, selector, rfl⟩ := eq_of_ofDraft hdraft
  have hlegible := Draft.legible_of_read (legible_object_iff.1 hv).2 hread
  exact ⟨hlegible.build, hlegible.hooks, hlegible.features, hlegible.customizations,
    hlegible.hostRequirements, hlegible.other⟩

theorem legible_toJson {d : Descriptor} (hwell : d.WellFormed) (h : d.Legible) :
    d.toJson.Legible := by
  rw [← toDescriptor_ofDescriptor d] at hwell h
  exact Draft.legible_write hwell h

/-- A descriptor that is read from a document is printed as a document that gives it again, with or
without a line end behind it; all but a descriptor with a separator in one of its strings, whose
document in print is not read at all. -/
theorem read_indented {text : String} {d : Descriptor} (h : read text = .ok d) {tail : String}
    (htail : tail ∈ ["", "\n"]) :
    read (d.toJson.indented ++ tail) =
      if Document.hasSeparator d.toJson.texts then .error .malformed else .ok d := by
  unfold read at h
  split at h
  next v hv =>
    have hwell : d.WellFormed := wellFormed_of_ofJson h
    have hlegible : d.Legible := legible_of_ofJson (Document.legible_of_read? hv) h
    rw [read, Document.read?_indented (legible_toJson hwell hlegible) htail]
    cases Document.hasSeparator d.toJson.texts with
    | true => rfl
    | false => exact ofJson_toJson_of_ofJson h
  next => cases h

def looseText : String :=
  "\x7bimage: 'alpine', // the base\n" ++
    " \"hostRequirements\": \x7b\"cpus\": 2,\x7d, /* kept */\n" ++
    " \"note\": [-0.0, 0x2F, +.50, 9007199254740993, 'a\\u0041\\n', null]\x7d"

theorem read_indented_looseText :
    ∃ d, read looseText = .ok d ∧ d.toJson.indented ≠ looseText ∧
      read (d.toJson.indented ++ "\n") = .ok d := by
  have hloose : (read looseText).toOption.any (fun d =>
      decide (d.toJson.indented ≠ looseText) && !Document.hasSeparator d.toJson.texts) = true := by
    decide +kernel
  cases hread : read looseText with
  | error invalid =>
      rw [hread] at hloose
      cases hloose
  | ok d =>
      rw [hread] at hloose
      obtain ⟨hne, hnone⟩ := Bool.and_eq_true_iff.1 hloose
      have hnone : Document.hasSeparator d.toJson.texts = false := by simpa using hnone
      refine ⟨d, rfl, of_decide_eq_true hne, ?_⟩
      rw [read_indented hread (List.mem_cons_of_mem _ (List.mem_cons_self ..)), hnone]
      rfl

def separatorText : String :=
  "\x7bimage: \"alpine\", note: \"\\u2028\"\x7d"

theorem not_read_indented_separatorText :
    ∃ d, read separatorText = .ok d ∧ read (d.toJson.indented ++ "\n") = .error .malformed := by
  refine ⟨{ empty with
    selector := some (.image "alpine"), other := .ofList [("note", .string "\u2028")] }, ?_, ?_⟩
  · decide +kernel
  · decide +kernel

end Descriptor

end Devcontainer
