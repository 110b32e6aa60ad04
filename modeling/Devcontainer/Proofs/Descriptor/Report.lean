import Devcontainer.Proofs.Launch.Folder
import Devcontainer.Proofs.Template.Found

/-!
# What is reported of the workspace folder

The declared folder is expanded first, and what that put in is reported over what the other templates
put in. A name of the workspace may have one value for the folder and another one for the others, so
the report tells what the others were given unless the folder itself has asked for the name.
-/

namespace Devcontainer.Descriptor

open Template

def otherTemplates (d : Descriptor) : List String :=
  { d with workspaceFolder := none }.templates

theorem templates_eq (d : Descriptor) :
    d.templates = d.workspaceFolder.toList ++ d.otherTemplates := by
  simp [otherTemplates, templates]

theorem mem_templates_withExpandedFolder {d : Descriptor} (c : Context) {t : String}
    (h : t ∈ d.otherTemplates) : t ∈ (d.withExpandedFolder c).templates := by
  rw [templates_eq]
  exact List.mem_append_right _ h

theorem report_of_expand {c : Context} {d e : Descriptor} {report : Report}
    (h : d.expand c = .ok (e, report)) : report = Report.ofTemplates c d.templates := by
  rw [expand_eq] at h
  split at h
  next => exact (Prod.mk.inj (Except.ok.inj h)).2.symm
  next => cases h

/-- The report of a descriptor with a folder says of a name what it was for the folder, if the folder
has asked for it, and else what it was for the others. -/
theorem get?_report {c : Context} {d e : Descriptor} {report : Report} {folder : String}
    (h : d.expandInPlace c = .ok (e, report)) (hfolder : d.folder? = some folder) (w : WellKnown) :
    report.replacements.get? w.name =
      (if PutsIn c folder w then some (w.text c) else none).or
        (if ∃ t ∈ (d.withExpandedFolder c).templates, PutsIn (d.innerContext c) t w then
          some (w.text (d.innerContext c)) else none) := by
  obtain ⟨report', hexpand, hreplacements⟩ := exists_expand_of_expandInPlace h
  have hfirst : (d.folderReport c).replacements.get? w.name =
      if PutsIn c folder w then some (w.text c) else none := by
    rw [folderReport, hfolder, get?_replacements_ofTemplates]
    simp only [Option.mem_toList, Option.some_inj, exists_eq_left']
  have hlater := SortedMap.get?_insertAll (SortedMap.nodup_keys (d.folderReport c).replacements)
    report'.replacements w.name
  rw [hreplacements, hlater, report_of_expand hexpand, get?_replacements_ofTemplates, ← hfirst]
  rfl

theorem otherTemplates_mapTemplates (f : String → String) (d : Descriptor) :
    (d.mapTemplates f).otherTemplates = d.otherTemplates.map f :=
  templates_mapTemplates f { d with workspaceFolder := none }

theorem otherTemplates_of_expandInPlace {c : Context} {d e : Descriptor} {report : Report}
    (h : d.expandInPlace c = .ok (e, report)) :
    e.otherTemplates = d.otherTemplates.map fun t => (Template.expand (d.innerContext c) t).text := by
  obtain ⟨report', hexpand, -⟩ := exists_expand_of_expandInPlace h
  rw [(eq_of_expand hexpand).1, otherTemplates_mapTemplates]
  rfl

theorem text_withContainerFolder (c : Context) (folder : String) :
    WellKnown.containerFolder.text (c.withContainerFolder folder) = folder ∧
      WellKnown.containerBasename.text (c.withContainerFolder folder) = Path.basename folder :=
  ⟨String.ofList_toList, String.ofList_toList⟩

/-- A name that a template other than the folder mentions is reported with the value that the others
were given exactly when the folder does not ask for it or was given the same value. -/
theorem get?_report_iff {c : Context} {d e : Descriptor} {report : Report} {folder t : String}
    {w : WellKnown} (h : d.expandInPlace c = .ok (e, report)) (hfolder : d.folder? = some folder)
    (ht : t ∈ d.otherTemplates) (hmention : braced w.name <:+: t.toList) :
    let expanded := (Template.expand c folder).text
    let inner := c.withContainerFolder expanded
    e.otherTemplates = d.otherTemplates.map (fun t => (Template.expand inner t).text) ∧
    (∀ value, (w.name, value) ∈ (Template.expand inner t).replacements ↔ value = w.text inner) ∧
    (w = .containerFolder → w.text inner = expanded) ∧
    (w = .containerBasename → w.text inner = Path.basename expanded) ∧
    (report.replacements.get? w.name = some (w.text inner) ↔
      (PutsIn c folder w → w.text c = w.text inner)) ∧
    (braced w.name <:+: folder.toList → PutsIn c folder w) ∧
    ('$' ∉ folder.toList → ¬ PutsIn c folder w) := by
  intro expanded inner
  have hinner : d.innerContext c = inner := innerContext_of_some hfolder
  have hput : PutsIn inner t w := putsIn_of_braced hmention
  have hothers : ∃ t ∈ (d.withExpandedFolder c).templates, PutsIn inner t w :=
    ⟨t, mem_templates_withExpandedFolder c ht, hput⟩
  obtain ⟨hcontainer, hbasename⟩ := text_withContainerFolder c expanded
  have hreport := get?_report h hfolder w
  rw [hinner, if_pos hothers] at hreport
  refine ⟨hinner ▸ otherTemplates_of_expandInPlace h, fun value => mem_replacements_iff hput,
    fun hw => hw ▸ hcontainer, fun hw => hw ▸ hbasename, ?_, putsIn_of_braced,
    fun hplain => not_putsIn_of_not_mem hplain w⟩
  rw [hreport]
  -- the value from the folder is told first, so the one for the others only shows when there is none
  by_cases hasked : PutsIn c folder w
  · rw [if_pos hasked, Option.some_or, Option.some_inj]
    exact ⟨fun hsame _ => hsame, fun hsame => hsame hasked⟩
  · rw [if_neg hasked, Option.none_or]
    exact iff_of_true rfl fun hfirst => absurd hfirst hasked

def reported? (c : Context) (d : Descriptor) (w : WellKnown) : Option String :=
  (d.expandInPlace c).toOption.bind fun p => p.2.replacements.get? w.name

theorem exists_expandInPlace_of_reported? {c : Context} {d : Descriptor} {w : WellKnown}
    {value : String} (h : d.reported? c w = some value) : ∃ e report,
      d.expandInPlace c = .ok (e, report) ∧ report.replacements.get? w.name = some value := by
  unfold reported? at h
  cases hexpand : d.expandInPlace c with
  | error _ =>
      rw [hexpand] at h
      cases h
  | ok p =>
      rw [hexpand] at h
      exact ⟨p.1, p.2, rfl, h⟩

theorem get?_report_iff_app :
    let c := Context.ofRoot "/home/u/app" fun _ => none
    let d := Launch.withFolder "/src/$\x7blocalWorkspaceFolderBasename\x7d"
    ∃ e report, d.expandInPlace c = .ok (e, report) ∧
      d.folder? = some "/src/$\x7blocalWorkspaceFolderBasename\x7d" ∧
      "$\x7bcontainerWorkspaceFolder\x7d" ∈ d.otherTemplates ∧
      braced WellKnown.containerFolder.name <:+: "$\x7bcontainerWorkspaceFolder\x7d".toList ∧
      e.otherTemplates = ["/src/app"] ∧
      report.replacements.get? WellKnown.containerFolder.name = some "/src/app" := by
  intro c d
  have hreported : d.reported? c .containerFolder = some "/src/app" := by decide +kernel
  have hfolder : d.folder? = some "/src/$\x7blocalWorkspaceFolderBasename\x7d" := by decide +kernel
  have hmem : "$\x7bcontainerWorkspaceFolder\x7d" ∈ d.otherTemplates := by decide +kernel
  have hmention : braced WellKnown.containerFolder.name <:+:
      "$\x7bcontainerWorkspaceFolder\x7d".toList := by decide
  have hasked : ¬ PutsIn c "/src/$\x7blocalWorkspaceFolderBasename\x7d" .containerFolder := by
    decide +kernel
  have hvalue : WellKnown.containerFolder.text (c.withContainerFolder
      (Template.expand c "/src/$\x7blocalWorkspaceFolderBasename\x7d").text) = "/src/app" := by
    decide +kernel
  obtain ⟨e, report, hexpand, -⟩ := exists_expandInPlace_of_reported? hreported
  obtain ⟨hothers, -, -, -, hiff, -, -⟩ := get?_report_iff hexpand hfolder hmem hmention
  have hget := hiff.2 fun hfirst => absurd hfirst hasked
  refine ⟨e, report, hexpand, hfolder, hmem, hmention, ?_, hvalue ▸ hget⟩
  rw [hothers]
  decide +kernel

theorem not_get?_report :
    ¬ ∀ (root : String) (env : String → Option String) (d e : Descriptor) (report : Report)
        (folder t : String) (w : WellKnown),
      let c := Context.ofRoot root env
      d.expandInPlace c = .ok (e, report) → d.folder? = some folder →
      w = .containerFolder ∨ w = .containerBasename →
      t ∈ d.otherTemplates → braced w.name <:+: t.toList →
      report.replacements.get? w.name =
        some (w.text (c.withContainerFolder (Template.expand c folder).text)) := by
  intro hall
  let d := Launch.withFolder "$\x7bcontainerWorkspaceFolder\x7d/sub"
  have hreported : d.reported? (Context.ofRoot "/home/u/app" fun _ => none) .containerFolder =
      some "/workspaces/app" := by decide +kernel
  have hfolder : d.folder? = some "$\x7bcontainerWorkspaceFolder\x7d/sub" := by decide +kernel
  have hmem : "$\x7bcontainerWorkspaceFolder\x7d" ∈ d.otherTemplates := by decide +kernel
  obtain ⟨e, report, hexpand, hget⟩ := exists_expandInPlace_of_reported? hreported
  have htold := hall "/home/u/app" (fun _ => none) d e report _ _ _ hexpand hfolder (.inl rfl) hmem
    (by decide)
  rw [hget] at htold
  exact absurd htold (by decide +kernel)

end Devcontainer.Descriptor
