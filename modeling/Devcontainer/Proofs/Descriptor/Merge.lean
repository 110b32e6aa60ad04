import Devcontainer.Descriptor.Merge
import Devcontainer.Proofs.Descriptor.Document
import Mathlib.Data.List.Induction

/-!
# Which merged descriptors survive printing

Merging keeps descriptors well-formed, so what can go wrong is the selector alone. An overlay whose
own selector is an empty Dockerfile is passed over as a selector, but not its build: a Dockerfile in
that build ends up under whatever the base selects. Along a list of descriptors it stays there until
a later one brings a build of its own or selects another kind of container.
-/

namespace Devcontainer

theorem Json.merge_ne_null {base upper : Json} (h : upper ≠ .null) : base.merge upper ≠ .null := by
  cases base <;> cases upper <;> simp_all [Json.merge]

namespace Descriptor

/-- The selector names an empty Dockerfile, and the build names one nevertheless. -/
def NamesEmptyDockerfile (d : Descriptor) : Prop :=
  d.selector = some (.dockerfile "") ∧ d.buildDockerfile?.isSome

/-- Some descriptor in the list names an empty Dockerfile, what it is merged onto selects no
Dockerfile, and nothing behind it takes its build away. -/
def StrandsDockerfile (ds : List Descriptor) : Prop :=
  ∃ before d after base kind, ds = before ++ d :: after ∧ mergeAll? before = some base ∧
    d.NamesEmptyDockerfile ∧ kind ≠ Selector.Kind.dockerfile ∧
    (∀ s, base.selector = some s → s.kind = kind) ∧
    ∀ e ∈ after, e.build = none ∧ ∀ s, e.selector = some s → s.isEmpty = false → s.kind = kind

/-! ## Merging keeps descriptors well-formed -/

theorem wellFormed_merge {base upper : Descriptor} (hbase : base.WellFormed)
    (hupper : upper.WellFormed) : (base.merge upper).WellFormed := by
  constructor
  · intro b hb
    have hor : upper.build.or
        (if Merge.switches base.selector upper.selector then upper else base).build = some b := hb
    rcases Option.or_eq_some_iff.1 hor with hb | ⟨-, hb⟩
    · exact hupper.build b hb
    · split at hb
      · exact hupper.build b hb
      · exact hbase.build b hb
  · have hjson : (base.merge upper).customizations =
        Merge.json base.customizations upper.customizations := rfl
    rw [hjson]
    have hb := hbase.customizations
    have hu := hupper.customizations
    cases hbc : base.customizations with
    | none => cases huc : upper.customizations <;> simp_all [Merge.json]
    | some b =>
        cases huc : upper.customizations with
        | none => simp_all [Merge.json]
        | some u =>
            rw [huc] at hu
            intro hnull
            exact Json.merge_ne_null (fun h => hu (congrArg some h)) (Option.some.inj hnull)
  · intro r hr
    have hor : upper.hostRequirements.or base.hostRequirements = some r := hr
    rcases Option.or_eq_some_iff.1 hor with hr | ⟨-, hr⟩
    · exact hupper.hostRequirements r hr
    · exact hbase.hostRequirements r hr
  · intro key hkey
    rcases OrderedMap.mem_keys_union.1 hkey with hkey | hkey
    · exact hbase.other key hkey
    · exact hupper.other key hkey

theorem mergeAll?_cons (d : Descriptor) (ds : List Descriptor) :
    mergeAll? (d :: ds) = some (ds.foldl merge d) := by
  show ds.foldl (fun merged d => merge? merged (some d)) (some d) = some (ds.foldl merge d)
  induction ds generalizing d with
  | nil => rfl
  | cons e ds ih => exact ih (d.merge e)

theorem mergeAll?_append {before : List Descriptor} {base : Descriptor}
    (h : mergeAll? before = some base) (after : List Descriptor) :
    mergeAll? (before ++ after) = some (after.foldl merge base) := by
  cases before with
  | nil => cases h
  | cons d ds =>
      rw [mergeAll?_cons] at h
      rw [List.cons_append, mergeAll?_cons, List.foldl_append, Option.some.inj h]

theorem wellFormed_foldl_merge {base : Descriptor} {ds : List Descriptor} (hbase : base.WellFormed)
    (h : ∀ d ∈ ds, d.WellFormed) : (ds.foldl merge base).WellFormed := by
  induction ds generalizing base with
  | nil => exact hbase
  | cons d ds ih =>
      exact ih (wellFormed_merge hbase (h d (List.mem_cons_self ..)))
        fun e he => h e (List.mem_cons_of_mem _ he)

/-! ## One merge and the selector -/

theorem selector_merge (base upper : Descriptor) :
    (base.merge upper).selector = Merge.selector base.selector upper.selector := rfl

theorem selector_merge_of_isEmpty {base upper : Descriptor}
    (h : ∀ s, upper.selector = some s → s.isEmpty = true) :
    (base.merge upper).selector = base.selector := by
  rw [selector_merge]
  cases hu : upper.selector with
  | none => rfl
  | some s => rw [Merge.selector, if_pos (h s hu)]

theorem selector_merge_of_not_isEmpty {base upper : Descriptor} {s : Selector}
    (hs : upper.selector = some s) (hne : s.isEmpty = false) :
    (base.merge upper).selector = some s := by
  rw [selector_merge, hs, Merge.selector, if_neg (by simp [hne])]

theorem selector_merge_cases (base upper : Descriptor) :
    ((base.merge upper).selector = base.selector ∧
      Merge.switches base.selector upper.selector = false ∧
      ∀ s, upper.selector = some s → s.isEmpty = true) ∨
    ∃ s, upper.selector = some s ∧ s.isEmpty = false ∧ (base.merge upper).selector = some s ∧
      (Merge.switches base.selector upper.selector = false ↔
        ∀ b, base.selector = some b → b.kind = s.kind) := by
  cases hs : upper.selector with
  | none =>
      refine Or.inl ⟨selector_merge_of_isEmpty (by simp [hs]), ?_, nofun⟩
      cases base.selector <;> rfl
  | some s =>
      cases hempty : s.isEmpty with
      | true =>
          refine Or.inl ⟨selector_merge_of_isEmpty (by simp [hs, hempty]), ?_, by simp [hempty]⟩
          cases base.selector with
          | none => rfl
          | some b => simp [Merge.switches, hempty]
      | false =>
          refine Or.inr ⟨s, rfl, hempty, selector_merge_of_not_isEmpty hs hempty, ?_⟩
          cases base.selector with
          | none => simp [Merge.switches]
          | some b => simp [Merge.switches, hempty]

theorem buildDockerfile?_merge (base upper : Descriptor) :
    (base.merge upper).buildDockerfile? =
      if upper.build.isSome then upper.buildDockerfile?
      else if Merge.switches base.selector upper.selector then none
      else base.buildDockerfile? := by
  have hmerge : (base.merge upper).build = upper.build.or
      (if Merge.switches base.selector upper.selector then upper else base).build := rfl
  unfold buildDockerfile?
  rw [hmerge]
  cases hu : upper.build with
  | some b => rfl
  | none =>
      rw [Option.none_or]
      split <;> simp [hu]

theorem not_consistent_iff {d : Descriptor} :
    ¬ d.Consistent ↔ d.buildDockerfile?.isSome ∧ ¬ d.SelectsDockerfile := by
  unfold Consistent
  exact Classical.not_imp

theorem selectsDockerfile_iff_kind {d : Descriptor} :
    d.SelectsDockerfile ↔ ∃ s, d.selector = some s ∧ s.kind = .dockerfile := by
  constructor
  · rintro ⟨path, hpath⟩
    exact ⟨_, hpath, rfl⟩
  · rintro ⟨s, hs, hkind⟩
    cases s with
    | dockerfile path => exact ⟨path, hs⟩
    | image reference => cases hkind
    | compose files => cases hkind

theorem selectsDockerfile_merge {base upper : Descriptor} (h : base.SelectsDockerfile)
    (hswitch : Merge.switches base.selector upper.selector = false) :
    (base.merge upper).SelectsDockerfile := by
  obtain ⟨path, hpath⟩ := h
  rcases selector_merge_cases base upper with ⟨hkeeps, -, -⟩ | ⟨s, -, -, hmerge, hsame⟩
  · exact ⟨path, hkeeps.trans hpath⟩
  · have hkind := hsame.1 hswitch _ hpath
    exact selectsDockerfile_iff_kind.2 ⟨s, hmerge, hkind.symm⟩

theorem NamesEmptyDockerfile.selector_merge {base upper : Descriptor}
    (h : upper.NamesEmptyDockerfile) : (base.merge upper).selector = base.selector := by
  refine selector_merge_of_isEmpty fun s hs => ?_
  obtain rfl : Selector.dockerfile "" = s := Option.some.inj (h.1.symm.trans hs)
  rfl

theorem NamesEmptyDockerfile.selectsDockerfile_merge {base upper : Descriptor}
    (h : upper.NamesEmptyDockerfile) :
    (base.merge upper).SelectsDockerfile ↔ base.SelectsDockerfile := by
  unfold SelectsDockerfile
  rw [h.selector_merge]

/-- A merge is at odds with itself when the overlay brings a Dockerfile under an empty name, or when
the base is so already and the overlay changes nothing about it. -/
theorem not_consistent_merge {base upper : Descriptor} (hupper : upper.Consistent) :
    ¬ (base.merge upper).Consistent ↔
      upper.NamesEmptyDockerfile ∧ ¬ base.SelectsDockerfile ∨
      ¬ base.Consistent ∧ upper.build = none ∧
        Merge.switches base.selector upper.selector = false ∧
        ¬ (base.merge upper).SelectsDockerfile := by
  rw [not_consistent_iff, buildDockerfile?_merge]
  cases hbuild : upper.build with
  | some b =>
      simp only [Option.isSome_some, if_true, reduceCtorEq, false_and, and_false, or_false]
      constructor
      · rintro ⟨hfile, hselects⟩
        obtain ⟨path, hpath⟩ := hupper hfile
        have hempty : path = "" := by
          refine Decidable.byContradiction fun hne => hselects ⟨path, ?_⟩
          exact selector_merge_of_not_isEmpty hpath (by simpa [Selector.isEmpty] using hne)
        have hnames : upper.NamesEmptyDockerfile := ⟨hempty ▸ hpath, hfile⟩
        exact ⟨hnames, fun h => hselects (hnames.selectsDockerfile_merge.2 h)⟩
      · rintro ⟨hnames, hselects⟩
        exact ⟨hnames.2, fun h => hselects (hnames.selectsDockerfile_merge.1 h)⟩
  | none =>
      have hnames : ¬ upper.NamesEmptyDockerfile := by
        rintro ⟨-, hfile⟩
        simp [buildDockerfile?, hbuild] at hfile
      simp only [Option.isSome_none, Bool.false_eq_true, if_false, hnames, false_and, false_or,
        true_and]
      cases hswitch : Merge.switches base.selector upper.selector with
      | true => simp
      | false =>
          simp only [Bool.false_eq_true, if_false, true_and]
          constructor
          · rintro ⟨hfile, hselects⟩
            refine ⟨not_consistent_iff.2 ⟨hfile, fun h => ?_⟩, hselects⟩
            exact hselects (Descriptor.selectsDockerfile_merge h hswitch)
          · rintro ⟨hbase, hselects⟩
            exact ⟨(not_consistent_iff.1 hbase).1, hselects⟩

theorem consistent_merge_iff {base upper : Descriptor} (hbase : base.Consistent)
    (hupper : upper.Consistent) : (base.merge upper).Consistent ↔
      ¬ (upper.NamesEmptyDockerfile ∧ ¬ base.SelectsDockerfile) := by
  have h : ¬ (base.merge upper).Consistent ↔ _ := not_consistent_merge hupper
  have hnot : ¬ ¬ base.Consistent := fun hn => hn hbase
  simp only [hnot, false_and, or_false] at h
  exact Classical.not_not.symm.trans (not_congr h)

/-! ## Lists of descriptors -/

theorem not_consistent_foldl {kind : Selector.Kind} (hkind : kind ≠ .dockerfile) {m : Descriptor}
    (hm : ¬ m.Consistent) (hsel : ∀ s, m.selector = some s → s.kind = kind)
    {after : List Descriptor} (hcons : ∀ e ∈ after, e.Consistent)
    (hafter : ∀ e ∈ after, e.build = none ∧
      ∀ s, e.selector = some s → s.isEmpty = false → s.kind = kind) :
    ¬ (after.foldl merge m).Consistent := by
  induction after generalizing m with
  | nil => exact hm
  | cons e after ih =>
      obtain ⟨hbuild, he⟩ := hafter e (List.mem_cons_self ..)
      obtain ⟨hmerged, hswitch⟩ : (∀ s, (m.merge e).selector = some s → s.kind = kind) ∧
          Merge.switches m.selector e.selector = false := by
        rcases selector_merge_cases m e with ⟨hkeeps, hswitch, -⟩ | ⟨s, hs, hne, hmerge, hsame⟩
        · exact ⟨hkeeps ▸ hsel, hswitch⟩
        · refine ⟨fun s' hs' => ?_, hsame.2 fun b hb => ?_⟩
          · rw [hmerge] at hs'
            rw [← Option.some.inj hs', he s hs hne]
          · rw [hsel b hb, he s hs hne]
      have hselects : ¬ (m.merge e).SelectsDockerfile := by
        intro h
        obtain ⟨s, hs, hs'⟩ := selectsDockerfile_iff_kind.1 h
        exact hkind ((hmerged s hs).symm.trans hs')
      have hnext : ¬ (m.merge e).Consistent :=
        (not_consistent_merge (hcons e (List.mem_cons_self ..))).2
          (Or.inr ⟨hm, hbuild, hswitch, hselects⟩)
      exact ih hnext hmerged (fun e he => hcons e (List.mem_cons_of_mem _ he))
        fun e he => hafter e (List.mem_cons_of_mem _ he)

/-- From the back of the list: the last merge either makes the contradiction or passes it on. -/
theorem strands_of_not_consistent {ds : List Descriptor} (hcons : ∀ d ∈ ds, d.Consistent)
    {m : Descriptor} (hm : mergeAll? ds = some m) (hnot : ¬ m.Consistent) {kind : Selector.Kind}
    (hsel : ∀ s, m.selector = some s → s.kind = kind) :
    ∃ before d after base, ds = before ++ d :: after ∧ mergeAll? before = some base ∧
      d.NamesEmptyDockerfile ∧ (∀ s, base.selector = some s → s.kind = kind) ∧
      ∀ e ∈ after, e.build = none ∧
        ∀ s, e.selector = some s → s.isEmpty = false → s.kind = kind := by
  induction ds using List.reverseRecOn generalizing m with
  | nil => cases hm
  | append_singleton ds e ih =>
      have he : e.Consistent := hcons e (by simp)
      cases hds : mergeAll? ds with
      | none =>
          obtain rfl : ds = [] := by
            cases ds with
            | nil => rfl
            | cons d ds => rw [mergeAll?_cons] at hds; cases hds
          obtain rfl : e = m := Option.some.inj hm
          exact absurd he hnot
      | some base =>
          rw [mergeAll?_append hds] at hm
          obtain rfl : base.merge e = m := Option.some.inj hm
          rcases (not_consistent_merge he).1 hnot with ⟨hnames, -⟩ | ⟨hbase, hbuild, hswitch, -⟩
          · rw [hnames.selector_merge] at hsel
            exact ⟨ds, e, [], base, rfl, hds, hnames, hsel, fun _ he => absurd he List.not_mem_nil⟩
          · have hpassed : ∀ s, e.selector = some s → s.isEmpty = false → s.kind = kind :=
              fun s hs hne => hsel s (selector_merge_of_not_isEmpty hs hne)
            have hbasesel : ∀ s, base.selector = some s → s.kind = kind := by
              intro b hb
              rcases selector_merge_cases base e with ⟨hkeeps, -, -⟩ | ⟨s, hs, hne, -, hsame⟩
              · exact hsel b (hkeeps.trans hb)
              · rw [hsame.1 hswitch b hb, hpassed s hs hne]
            obtain ⟨before, d, after, first, rfl, hfirst, hnames, hfirstsel, hafter⟩ :=
              ih (fun d hd => hcons d (List.mem_append_left _ hd)) hds hbase hbasesel
            refine ⟨before, d, after ++ [e], first, by simp, hfirst, hnames, hfirstsel, ?_⟩
            intro e' he'
            rcases List.mem_append.1 he' with he' | he'
            · exact hafter e' he'
            · obtain rfl := List.mem_singleton.1 he'
              exact ⟨hbuild, hpassed⟩

theorem not_consistent_mergeAll? {ds : List Descriptor} (hcons : ∀ d ∈ ds, d.Consistent)
    {m : Descriptor} (hm : mergeAll? ds = some m) : ¬ m.Consistent ↔ StrandsDockerfile ds := by
  constructor
  · intro hnot
    obtain ⟨-, hselects⟩ := not_consistent_iff.1 hnot
    obtain ⟨kind, hkind, hsel⟩ : ∃ kind, kind ≠ Selector.Kind.dockerfile ∧
        ∀ s, m.selector = some s → s.kind = kind := by
      cases hs : m.selector with
      | none => exact ⟨.image, by decide, nofun⟩
      | some s =>
          refine ⟨s.kind, fun h => hselects (selectsDockerfile_iff_kind.2 ⟨s, hs, h⟩), ?_⟩
          intro s' hs'
          rw [Option.some.inj hs']
    obtain ⟨before, d, after, base, hds, hbase, hnames, hbasesel, hafter⟩ :=
      strands_of_not_consistent hcons hm hnot hsel
    exact ⟨before, d, after, base, kind, hds, hbase, hnames, hkind, hbasesel, hafter⟩
  · rintro ⟨before, d, after, base, kind, rfl, hbase, hnames, hkind, hbasesel, hafter⟩
    rw [mergeAll?_append hbase] at hm
    obtain rfl : after.foldl merge (base.merge d) = m := Option.some.inj hm
    have hd : d.Consistent := hcons d (by simp)
    have hselects : ¬ base.SelectsDockerfile := by
      intro h
      obtain ⟨s, hs, hs'⟩ := selectsDockerfile_iff_kind.1 h
      exact hkind ((hbasesel s hs).symm.trans hs')
    have hfirst : ¬ (base.merge d).Consistent :=
      (not_consistent_merge hd).2 (Or.inl ⟨hnames, hselects⟩)
    exact not_consistent_foldl hkind hfirst (hnames.selector_merge.symm ▸ hbasesel)
      (fun e he => hcons e (by simp [he])) hafter

theorem wellFormed_mergeAll? {ds : List Descriptor} (h : ∀ d ∈ ds, d.WellFormed) {m : Descriptor}
    (hm : mergeAll? ds = some m) : m.WellFormed := by
  cases ds with
  | nil => cases hm
  | cons d ds =>
      rw [mergeAll?_cons] at hm
      obtain rfl := Option.some.inj hm
      exact wellFormed_foldl_merge (h d (List.mem_cons_self ..))
        fun e he => h e (List.mem_cons_of_mem _ he)

theorem consistent_mergeAll?_iff {ds : List Descriptor} (haccepted : ∀ d ∈ ds, d.Accepted)
    {m : Descriptor} (hm : mergeAll? ds = some m) : m.Consistent ↔ ¬ StrandsDockerfile ds := by
  rw [← not_consistent_mergeAll? (fun d hd => (haccepted d hd).consistent) hm, Classical.not_not]

theorem survives_mergeAll?_iff {ds : List Descriptor} (haccepted : ∀ d ∈ ds, d.Accepted)
    {m : Descriptor} (hm : mergeAll? ds = some m) :
    ofJson m.toJson = .ok m ↔ ¬ StrandsDockerfile ds := by
  have hwell : m.WellFormed := wellFormed_mergeAll? (fun d hd => (haccepted d hd).wellFormed) hm
  rw [ofJson_toJson_eq_ok_iff, consistent_mergeAll?_iff haccepted hm]
  exact ⟨fun h => h.2, fun h => ⟨hwell, h⟩⟩

end Descriptor

end Devcontainer
