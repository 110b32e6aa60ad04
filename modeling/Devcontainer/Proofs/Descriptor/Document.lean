import Devcontainer.Proofs.Descriptor.Parts

/-!
# Descriptors survive printing

A descriptor is read back from its own document exactly when it is well-formed and its build does
not name a Dockerfile behind the back of its selector; whatever comes out of a document is such a
descriptor.
-/

namespace Devcontainer

open Codec

namespace Field

variable {R α β : Type} {key : String} {copy : R → R → R} {r target : R}

theorem copies_string {get : R → Option String} {set : String → R → R}
    (hcopy : (get r).elim target (fun s => set s target) = copy r target) :
    (optional key string get set).Copies copy r target :=
  copies_optional (fun s _ => ⟨restores_string s, nofun⟩) hcopy

theorem copies_bool {get : R → Option Bool} {set : Bool → R → R}
    (hcopy : (get r).elim target (fun b => set b target) = copy r target) :
    (optional key bool get set).Copies copy r target :=
  copies_optional (fun b _ => ⟨restores_bool b, nofun⟩) hcopy

theorem copies_list {codec : Codec (List β)} {get : R → List β} {set : List β → R → R}
    (hcodec : codec.Restores (get r)) (hnull : codec.write (get r) ≠ .null)
    (hcopy : set (get r) target = copy r target) (hblank : set [] target = target) :
    (omitted key codec List.isEmpty get set).Copies copy r target := by
  refine copies_omitted hcodec hnull hcopy fun hempty => ?_
  rw [← hcopy, List.isEmpty_iff.1 hempty, hblank]

theorem copies_map {codec : Codec β} {get : R → OrderedMap β} {set : OrderedMap β → R → R}
    (hcodec : ∀ e ∈ (get r).entries, codec.Restores e.2)
    (hcopy : set (get r) target = copy r target) (hblank : set .empty target = target) :
    (omitted key (map codec) OrderedMap.isEmpty get set).Copies copy r target := by
  refine copies_omitted (restores_map hcodec) nofun hcopy fun hempty => ?_
  rw [← hcopy, OrderedMap.eq_empty_of_isEmpty hempty, hblank]

end Field

namespace Hooks

theorem set_eq_self {hooks : Hooks} {hook : Hook} {command : Option Command}
    (h : hooks.get hook = command) : hooks.set hook command = hooks := by
  ext1 other
  show (if other = hook then command else hooks.get other) = hooks.get other
  split
  next heq => rw [heq, h]
  next => rfl

end Hooks

namespace Descriptor

/-- What every descriptor out of a document has: nothing that may be left out is null, and the keys
without a meaning are none of those with one. -/
structure WellFormed (d : Descriptor) : Prop where
  build : ∀ b, d.build = some b → b.WellFormed
  customizations : d.customizations ≠ some .null
  hostRequirements : ∀ h, d.hostRequirements = some h → h.WellFormed
  other : ∀ key ∈ d.other.keys, Draft.record.field? key = none

def buildDockerfile? (d : Descriptor) : Option String :=
  d.build.bind (·.dockerfile)

def SelectsDockerfile (d : Descriptor) : Prop :=
  ∃ path, d.selector = some (.dockerfile path)

/-- A build names a Dockerfile only under a selector that does so, too. -/
def Consistent (d : Descriptor) : Prop :=
  d.buildDockerfile?.isSome → d.SelectsDockerfile

def Accepted (d : Descriptor) : Prop :=
  ∃ v, ofJson v = .ok d

def kept (d : Descriptor) : Option Build × Hooks × OrderedMap Json × Option Json ×
    Option HostRequirements × OrderedMap Json :=
  (d.build, d.hooks, d.features, d.customizations, d.hostRequirements, d.other)

namespace Draft

def copyHook (hook : Hook) (d target : Draft) : Draft :=
  { target with hooks := target.hooks.set hook (d.hooks.get hook) }

def copies : List (Draft → Draft → Draft) := [
  fun d target => { target with ancestor := d.ancestor },
  fun d target => { target with name := d.name },
  fun d target => { target with image := d.image },
  fun d target => { target with dockerFile := d.dockerFile },
  fun d target => { target with build := d.build },
  fun d target => { target with composeFiles := d.composeFiles },
  fun d target => { target with service := d.service },
  fun d target => { target with runServices := d.runServices },
  fun d target => { target with workspaceFolder := d.workspaceFolder },
  fun d target => { target with workspaceMount := d.workspaceMount },
  fun d target => { target with containerEnv := d.containerEnv },
  fun d target => { target with remoteEnv := d.remoteEnv },
  fun d target => { target with containerUser := d.containerUser },
  fun d target => { target with remoteUser := d.remoteUser },
  fun d target => { target with forwardPorts := d.forwardPorts },
  fun d target => { target with appPorts := d.appPorts },
  fun d target => { target with runArgs := d.runArgs },
  copyHook .onInitialize,
  copyHook .onCreate,
  copyHook .onUpdateContent,
  copyHook .postCreate,
  copyHook .postStart,
  copyHook .postAttach,
  fun d target => { target with mounts := d.mounts },
  fun d target => { target with capAdd := d.capAdd },
  fun d target => { target with securityOpt := d.securityOpt },
  fun d target => { target with init := d.init },
  fun d target => { target with privileged := d.privileged },
  fun d target => { target with features := d.features },
  fun d target => { target with customizations := d.customizations },
  fun d target => { target with hostRequirements := d.hostRequirements }]

theorem record_distinct : record.Distinct := by
  unfold Record.Distinct
  decide +kernel

theorem record_keepsOther : record.KeepsOther := ⟨fun _ _ => rfl, fun _ _ _ => rfl, fun _ => rfl⟩

theorem copies_hook {hook : Hook} {d target : Draft} (h : target.hooks.get hook = none) :
    (hookField hook).Copies (copyHook hook) d target := by
  refine Field.copies_optional (fun c _ => ⟨restores_command c, c.toJson_ne_null⟩) ?_
  unfold copyHook
  cases d.hooks.get hook with
  | none => rw [Hooks.set_eq_self h, Option.elim_none]
  | some c => rfl

theorem copied {d : Draft} (h : d.toDescriptor.WellFormed) :
    Record.Copied d record.fields copies record.empty := by
  have hbuild : ∀ b, d.build = some b → (Build.record.codec .build).Restores b :=
    fun b hb => Build.restores_codec (h.build b hb)
  have hhost : ∀ r, d.hostRequirements = some r → HostRequirements.codec.Restores r :=
    fun r hr => HostRequirements.restores_codec (h.hostRequirements r hr)
  have hcustom : ∀ v, d.customizations = some v → v ≠ .null := by
    rintro v hv rfl
    exact h.customizations hv
  exact ⟨
    Field.copies_string (by cases d.ancestor <;> rfl),
    Field.copies_string (by cases d.name <;> rfl),
    Field.copies_string (by cases d.image <;> rfl),
    Field.copies_string (by cases d.dockerFile <;> rfl),
    Field.copies_optional (fun b hb => ⟨hbuild b hb, nofun⟩) (by cases d.build <;> rfl),
    Field.copies_optional
      (fun ss _ => ⟨restores_oneOrMany string_read_array fun s _ => restores_string s, nofun⟩)
      (by cases d.composeFiles <;> rfl),
    Field.copies_string (by cases d.service <;> rfl),
    Field.copies_list (restores_texts _) nofun rfl rfl,
    Field.copies_string (by cases d.workspaceFolder <;> rfl),
    Field.copies_string (by cases d.workspaceMount <;> rfl),
    Field.copies_map (fun e _ => restores_string e.2) rfl rfl,
    Field.copies_map
      (fun e _ => restores_nullable (fun s _ => restores_string s) (fun _ _ => nofun)) rfl rfl,
    Field.copies_string (by cases d.containerUser <;> rfl),
    Field.copies_string (by cases d.remoteUser <;> rfl),
    Field.copies_list (restores_list fun p _ => restores_port p) nofun rfl rfl,
    Field.copies_list (restores_oneOrMany port_read_array fun p _ => restores_port p) nofun rfl rfl,
    Field.copies_optional (fun ss _ => ⟨restores_texts ss, nofun⟩) (by cases d.runArgs <;> rfl),
    copies_hook rfl,
    copies_hook rfl,
    copies_hook rfl,
    copies_hook rfl,
    copies_hook rfl,
    copies_hook rfl,
    Field.copies_list (restores_list fun m _ => restores_mount m) nofun rfl rfl,
    Field.copies_list (restores_texts _) nofun rfl rfl,
    Field.copies_list (restores_texts _) nofun rfl rfl,
    Field.copies_bool (by cases d.init <;> rfl),
    Field.copies_bool (by cases d.privileged <;> rfl),
    Field.copies_map (fun e _ => restores_json e.2) rfl rfl,
    Field.copies_optional (fun v hv => ⟨restores_json v, hcustom v hv⟩)
      (by cases d.customizations <;> rfl),
    Field.copies_optional (fun r hr => ⟨hhost r hr, nofun⟩) (by cases d.hostRequirements <;> rfl),
    trivial⟩

/-- All copies together make the draft anew, but for the selector, which no key stands for. -/
theorem setOther_copyAll (d : Draft) :
    record.setOther (record.other d) (Record.copyAll copies d record.empty) =
      { d with selector := none } := by
  have hhooks : (Record.copyAll copies d record.empty).hooks = d.hooks := by
    ext1 hook
    cases hook <;> rfl
  have hsplit : record.setOther (record.other d) (Record.copyAll copies d record.empty) =
      { d with
        selector := none
        hooks := (Record.copyAll copies d record.empty).hooks } := by
    simp only [Record.copyAll, copies, List.foldl_cons, List.foldl_nil, copyHook, record]
    rfl
  rw [hsplit, hhooks]

theorem read_write {d : Draft} (h : d.toDescriptor.WellFormed) :
    record.read (record.write d) = .ok { d with selector := none } := by
  rw [Record.read_write record_distinct record_keepsOther h.other (copied h) rfl, setOther_copyAll]

/-- What holds of the empty descriptor and is preserved wherever a value is kept holds of a draft
that has been read, if it is about the kept values alone. -/
theorem read_induction {Q : Json → Prop} {P : Descriptor → Prop}
    (hkept : ∀ {d d' : Descriptor}, d'.kept = d.kept → P d → P d') (hempty : P Descriptor.empty)
    (hbuild : ∀ members b, Q (.object members) → Build.record.read members = .ok b →
      ∀ d, P d → P { d with build := some b })
    (hhook : ∀ v hook c, Q v → command.read v = .ok c →
      ∀ d, P d → P { d with hooks := d.hooks.set hook (some c) })
    (hfeatures : ∀ v m, Q v → (map json).read v = .ok m → ∀ d, P d → P { d with features := m })
    (hcustom : ∀ v, Q v → v ≠ .null → ∀ d, P d → P { d with customizations := some v })
    (hhost : ∀ members r, Q (.object members) → HostRequirements.record.read members = .ok r →
      ∀ d, P d → P { d with hostRequirements := some r })
    (hother : ∀ key v, Q v → record.field? key = none →
      ∀ d, P d → P { d with other := d.other.insert key v })
    {members : List (String × Json)} (hmembers : ∀ e ∈ members, Q e.2) {d : Draft}
    (h : record.read members = .ok d) : P d.toDescriptor := by
  refine Record.read_induction_from (P := (P ·.toDescriptor)) hempty ?_
    (fun key v d hv hkey => hother key v hv hkey d.toDescriptor) hmembers h
  have hplain {α : Type} {key : String} {codec : Codec α} {get : Draft → Option α}
      {set : α → Draft → Draft} (h : ∀ a d, (set a d).toDescriptor.kept = d.toDescriptor.kept) :
      (Field.optional key codec get set).PreservesFrom Q (P ·.toDescriptor) :=
    Field.preservesFrom_optional fun _ a _ _ _ d hd => hkept (h a d) hd
  have hhook' (hook : Hook) : (hookField hook).PreservesFrom Q (P ·.toDescriptor) :=
    Field.preservesFrom_optional fun v c hv _ hc d => hhook v hook c hv hc d.toDescriptor
  have hbuild' : ∀ v b, Q v → v ≠ .null → (Build.record.codec .build).read v = .ok b →
      ∀ d : Draft, P d.toDescriptor → P { d.toDescriptor with build := some b } := by
    intro v b hv _ hread d
    cases v with
    | object members => exact hbuild members b hv hread d.toDescriptor
    | _ => cases hread
  have hcustom' : ∀ v v', Q v → v ≠ .null → json.read v = .ok v' → ∀ d : Draft,
      P d.toDescriptor → P { d.toDescriptor with customizations := some v' } := by
    intro v v' hv hnull hread d
    obtain rfl := Except.ok.inj hread
    exact hcustom v hv hnull d.toDescriptor
  have hhost' : ∀ v r, Q v → v ≠ .null → HostRequirements.codec.read v = .ok r →
      ∀ d : Draft, P d.toDescriptor → P { d.toDescriptor with hostRequirements := some r } := by
    intro v r hv _ hread d
    cases v with
    | object members => exact hhost members r hv hread d.toDescriptor
    | _ => cases hread
  simp only [record, fields, List.forall_mem_cons, List.not_mem_nil, false_imp_iff, implies_true,
    and_true]
  exact ⟨
    hplain fun _ _ => rfl, hplain fun _ _ => rfl, hplain fun _ _ => rfl, hplain fun _ _ => rfl,
    Field.preservesFrom_optional hbuild', hplain fun _ _ => rfl, hplain fun _ _ => rfl,
    hplain fun _ _ => rfl, hplain fun _ _ => rfl, hplain fun _ _ => rfl, hplain fun _ _ => rfl,
    hplain fun _ _ => rfl, hplain fun _ _ => rfl, hplain fun _ _ => rfl, hplain fun _ _ => rfl,
    hplain fun _ _ => rfl, hplain fun _ _ => rfl, hhook' _, hhook' _, hhook' _, hhook' _, hhook' _,
    hhook' _, hplain fun _ _ => rfl, hplain fun _ _ => rfl, hplain fun _ _ => rfl,
    hplain fun _ _ => rfl, hplain fun _ _ => rfl,
    Field.preservesFrom_optional fun v m hv _ hm d => hfeatures v m hv hm d.toDescriptor,
    Field.preservesFrom_optional hcustom', Field.preservesFrom_optional hhost'⟩

theorem wellFormed_of_read {members : List (String × Json)} {d : Draft}
    (h : record.read members = .ok d) : d.toDescriptor.WellFormed := by
  refine read_induction (Q := fun _ => True) (P := WellFormed) ?_ ⟨nofun, nofun, nofun, nofun⟩
    ?_ ?_ ?_ ?_ ?_ ?_ (fun _ _ => trivial) h
  · intro d d' hkept hd
    simp only [kept, Prod.mk.injEq] at hkept
    obtain ⟨hbuild, -, -, hcustom, hhost, hother⟩ := hkept
    exact ⟨hbuild ▸ hd.build, hcustom ▸ hd.customizations, hhost ▸ hd.hostRequirements,
      hother ▸ hd.other⟩
  · intro members b _ hread d hd
    refine { hd with build := ?_ }
    rintro _ ⟨⟩
    exact Build.wellFormed_of_read hread
  · exact fun v hook c _ _ d hd => { hd with }
  · exact fun v m _ _ d hd => { hd with }
  · intro v _ hnull d hd
    exact { hd with customizations := fun h => hnull (Option.some.inj h) }
  · intro members r _ hread d hd
    refine { hd with hostRequirements := ?_ }
    rintro _ ⟨⟩
    exact HostRequirements.wellFormed_of_read hread
  · intro key v _ hkey d hd
    refine { hd with other := fun k hk => ?_ }
    rcases OrderedMap.mem_keys_insert.1 hk with rfl | hk
    · exact hkey
    · exact hd.other k hk

end Draft

/-! ## Selectors -/

theorem eq_of_ofDraft {draft : Draft} {d : Descriptor} (h : ofDraft draft = .ok d) :
    draft.selectors = d.selector.toList ∧ ∃ s, d = { draft.toDescriptor with selector := s } := by
  unfold ofDraft at h
  split at h
  next hnone =>
    cases h
    exact ⟨hnone, _, rfl⟩
  next selector hone =>
    cases h
    exact ⟨hone, _, rfl⟩
  next => cases h

theorem consistent_of_ofDraft {draft : Draft} {d : Descriptor} (h : ofDraft draft = .ok d) :
    d.Consistent := by
  obtain ⟨hselectors, selector, rfl⟩ := eq_of_ofDraft h
  intro hsome
  obtain ⟨path, hpath⟩ : ∃ path, Selector.dockerfile path ∈ draft.selectors := by
    have hbuild : (draft.build.bind (·.dockerfile)).isSome := hsome
    obtain ⟨path, hpath⟩ := Option.isSome_iff_exists.1 hbuild
    cases hfile : draft.dockerFile with
    | none => exact ⟨path, by simp [Draft.selectors, hpath, hfile]⟩
    | some file => exact ⟨file, by simp [Draft.selectors, hfile]⟩
  rw [hselectors] at hpath
  exact ⟨path, Option.mem_toList.1 hpath⟩

/-- A consistent descriptor is written with the one key that names its selector, or with none when
the build names it. -/
theorem selectors_ofDescriptor {d : Descriptor} (h : d.Consistent) :
    (Draft.ofDescriptor d).selectors = d.selector.toList := by
  have hnone : (∀ path, d.selector ≠ some (.dockerfile path)) →
      d.build.bind (·.dockerfile) = none := by
    intro hsel
    rw [Option.eq_none_iff_forall_ne_some]
    intro path hpath
    obtain ⟨path', hpath'⟩ := h (Option.isSome_iff_exists.2 ⟨path, hpath⟩)
    exact hsel path' hpath'
  unfold Draft.ofDescriptor
  cases hsel : d.selector with
  | none => simp [Draft.selectors, hnone (by simp [hsel])]
  | some selector =>
      cases selector with
      | image reference => simp [Draft.selectors, hnone (by simp [hsel])]
      | compose files => simp [Draft.selectors, hnone (by simp [hsel])]
      | dockerfile path =>
          simp only
          split
          next hpath => simp [Draft.selectors, hpath]
          next => simp [Draft.selectors]

theorem toDescriptor_ofDescriptor (d : Descriptor) : (Draft.ofDescriptor d).toDescriptor = d := by
  unfold Draft.ofDescriptor
  split
  · rfl
  · split <;> rfl
  · rfl
  · rfl

/-! ## Reading and writing -/

theorem exists_draft_of_ofJson {v : Json} {d : Descriptor} (h : ofJson v = .ok d) :
    ∃ members draft, v = .object members ∧ Draft.record.read members = .ok draft ∧
      ofDraft draft = .ok d := by
  unfold ofJson at h
  split at h
  next members =>
    split at h
    next => cases h
    next draft hread => exact ⟨members, draft, rfl, hread, h⟩
  next => cases h

theorem wellFormed_of_ofJson {v : Json} {d : Descriptor} (h : ofJson v = .ok d) :
    d.WellFormed := by
  obtain ⟨members, draft, -, hread, hdraft⟩ := exists_draft_of_ofJson h
  obtain ⟨-, selector, rfl⟩ := eq_of_ofDraft hdraft
  have hwell := Draft.wellFormed_of_read hread
  exact ⟨hwell.build, hwell.customizations, hwell.hostRequirements, hwell.other⟩

theorem consistent_of_ofJson {v : Json} {d : Descriptor} (h : ofJson v = .ok d) :
    d.Consistent := by
  obtain ⟨members, draft, -, -, hdraft⟩ := exists_draft_of_ofJson h
  exact consistent_of_ofDraft hdraft

theorem ofJson_toJson {d : Descriptor} (hwell : d.WellFormed) (hcons : d.Consistent) :
    ofJson d.toJson = .ok d := by
  have hwell' : (Draft.ofDescriptor d).toDescriptor.WellFormed := by
    rw [toDescriptor_ofDescriptor]
    exact hwell
  have hselectors : { Draft.ofDescriptor d with selector := none }.selectors = d.selector.toList :=
    selectors_ofDescriptor hcons
  unfold toJson ofJson
  simp only [Draft.read_write hwell']
  unfold ofDraft
  rw [hselectors]
  cases hsel : d.selector with
  | none =>
      show Except.ok { (Draft.ofDescriptor d).toDescriptor with selector := none } = _
      rw [toDescriptor_ofDescriptor, ← hsel]
  | some selector =>
      show Except.ok { (Draft.ofDescriptor d).toDescriptor with selector := some selector } = _
      rw [toDescriptor_ofDescriptor, ← hsel]

/-- Every part of a descriptor that is read from a document survives writing, the order of the keys
in its maps included. -/
theorem ofJson_toJson_of_ofJson {v : Json} {d : Descriptor} (h : ofJson v = .ok d) :
    ofJson d.toJson = .ok d := by
  have hwell : d.WellFormed := wellFormed_of_ofJson h
  have hcons : d.Consistent := consistent_of_ofJson h
  exact ofJson_toJson hwell hcons

def looseDocument : Json := .object [
  ("zeta", .array [.object [("b", .null), ("a", .bool true)]]),
  ("build", .object [
    ("target", .string "dev"), ("note", .number (.int 1)), ("dockerFile", .string "Dockerfile"),
    ("cacheFrom", .string "base"), ("args", .object [("Z", .string "1"), ("A", .string "")])]),
  ("containerEnv", .object [("PATH", .string "/bin"), ("HOME", .string "/")]),
  ("remoteEnv", .object [("TERM", .null), ("LANG", .string "C")]),
  ("features", .object [("git", .object [("version", .string "2"), ("base", .null)])]),
  ("appPort", .number (.int 3000)),
  ("forwardPorts", .array [.string "db:5432", .number (.int 80)]),
  ("postCreateCommand", .object [
    ("serve", .array [.string "make", .string "serve"]), ("build", .string "make")]),
  ("mounts", .array [
    .string "type=volume,target=/c", .array [.string "bind", .string "/a"],
    .object [("target", .string "/b"), ("readonly", .bool true)]]),
  ("hostRequirements", .object [("gpu", .string "optional"), ("rank", .null),
    ("cpus", .number (.int 4)), ("memory", .string "8gb")]),
  ("runArgs", .array []), ("capAdd", .array []), ("service", .null), ("alpha", .null)]

theorem ofJson_toJson_of_ofJson_looseDocument :
    ∃ d, ofJson looseDocument = .ok d ∧ d.toJson ≠ looseDocument ∧ ofJson d.toJson = .ok d := by
  have hok : (ofJson looseDocument).toOption.isSome = true := by decide +kernel
  have hloose : (ofJson looseDocument).toOption.map toJson ≠ some looseDocument := by
    decide +kernel
  cases hread : ofJson looseDocument with
  | error fault =>
      rw [hread] at hok
      cases hok
  | ok d =>
      rw [hread] at hloose
      exact ⟨d, rfl, fun h => hloose (congrArg some h), ofJson_toJson_of_ofJson hread⟩

theorem ofJson_toJson_eq_ok_iff {d : Descriptor} :
    ofJson d.toJson = .ok d ↔ d.WellFormed ∧ d.Consistent :=
  ⟨fun h => ⟨wellFormed_of_ofJson h, consistent_of_ofJson h⟩, fun h => ofJson_toJson h.1 h.2⟩

theorem Accepted.wellFormed {d : Descriptor} (h : d.Accepted) : d.WellFormed := by
  obtain ⟨v, hv⟩ := h
  exact wellFormed_of_ofJson hv

theorem Accepted.consistent {d : Descriptor} (h : d.Accepted) : d.Consistent := by
  obtain ⟨v, hv⟩ := h
  exact consistent_of_ofJson hv

end Descriptor

end Devcontainer
