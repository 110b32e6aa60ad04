import Devcontainer.Launch
import Devcontainer.Proofs.Descriptor.Expand
import Devcontainer.Proofs.SortedMap
import Devcontainer.Proofs.Template.Expand

/-!
# The workspace folder of a launch

The folder of a launch and the folder that its templates refer to come about in different ways. The
declared folder is expanded once to be referred to, and what comes of that is expanded again to be
the folder of the launch. Both are the same folder when neither expansion changes it and it is not
empty, so always when it is a path without `$`.
-/

namespace Devcontainer

open Template

@[simp] theorem Context.containerFolder_withContainerFolder (c : Context) (folder : String) :
    (c.withContainerFolder folder).containerFolder = folder := rfl

namespace Template

def lateForms : List Form :=
  [⟨.containerFolder, false⟩, ⟨.localFolder, true⟩, ⟨.localFolder, false⟩]

/-- What a reference to the container folder comes to: the folder, after the replacements that are
still to come when it is put in. -/
def referredFolder (c : Context) : String :=
  String.ofList (textOf c.env
    (pieces (replaceTokens (lateForms.map (Form.token c)) c.containerFolder.toList)))

theorem expand_containerFolder (c : Context) :
    (expand c "$\x7bcontainerWorkspaceFolder\x7d").text = referredFolder c := by
  have hwritten : "$\x7bcontainerWorkspaceFolder\x7d".toList =
      Form.written ⟨.containerFolder, true⟩ := by decide
  have hforms : Form.all =
      [⟨.containerBasename, true⟩, ⟨.containerBasename, false⟩, ⟨.localBasename, true⟩,
        ⟨.localBasename, false⟩] ++ ⟨.containerFolder, true⟩ :: lateForms := by decide
  rw [← String.toList_inj, toList_text_expand, piecesOf, hwritten, replaceTokens_form c hforms]
  exact String.toList_ofList.symm

theorem referredFolder_of_not_mem {c : Context} (h : '$' ∉ c.containerFolder.toList) :
    referredFolder c = c.containerFolder := by
  have hreplace := replaceTokens_append_of_not_mem (c := c) lateForms h []
  rw [List.append_nil, replaceTokens_nil, List.append_nil] at hreplace
  have hpieces := pieces_append_of_not_mem h []
  rw [List.append_nil] at hpieces
  rw [referredFolder, hreplace, hpieces, textOf_map_char_append, ← String.toList_inj,
    String.toList_ofList]
  exact List.append_nil _

theorem toList_defaultFolder (root : String) : (Context.defaultFolder root).toList =
    "/workspaces/".toList ++ (Path.basename root).toList := by
  rw [Context.defaultFolder, Context.workspaces, String.toList_append, String.toList_append]
  rfl

theorem defaultFolder_ne_empty (root : String) : Context.defaultFolder root ≠ "" := by
  intro hempty
  have htext := toList_defaultFolder root
  rw [hempty] at htext
  exact List.cons_ne_nil _ _ htext.symm

theorem expand_defaultFolder_ne_empty (c : Context) (root : String) :
    (expand c (Context.defaultFolder root)).text ≠ "" := by
  intro hempty
  have hplain : '$' ∉ "/workspaces/".toList := by decide
  have htext := expand_append_of_not_mem (c := c) hplain (Path.basename root).toList
  rw [← toList_defaultFolder, String.ofList_toList, hempty] at htext
  exact List.cons_ne_nil _ _ htext.symm

end Template

namespace Descriptor

/-- The context in which the templates of a descriptor are expanded: there the container folder is
the declared one, expanded in the context given. -/
def innerContext (c : Context) (d : Descriptor) : Context :=
  match d.folder? with
  | none => c
  | some folder => c.withContainerFolder (Template.expand c folder).text

theorem innerContext_of_none {c : Context} {d : Descriptor} (h : d.folder? = none) :
    d.innerContext c = c := by
  rw [innerContext, h]

theorem innerContext_of_some {c : Context} {d : Descriptor} {folder : String}
    (h : d.folder? = some folder) :
    d.innerContext c = c.withContainerFolder (Template.expand c folder).text := by
  rw [innerContext, h]

def withExpandedFolder (c : Context) (d : Descriptor) : Descriptor :=
  { d with
    workspaceFolder :=
      (d.folder?.map fun folder => (Template.expand c folder).text).or d.workspaceFolder }

theorem workspaceFolder_withExpandedFolder (c : Context) (d : Descriptor) :
    (d.withExpandedFolder c).workspaceFolder =
      (d.folder?.map fun folder => (Template.expand c folder).text).or d.workspaceFolder := rfl

def folderReport (c : Context) (d : Descriptor) : Report :=
  Report.ofTemplates c d.folder?.toList

/-- An expansion in place is one expansion in the inner context, and what the folder has put in before
is laid over its report. -/
theorem expandInPlace_eq_map (c : Context) (d : Descriptor) :
    d.expandInPlace c = ((d.withExpandedFolder c).expand (d.innerContext c)).map fun p =>
      (p.1, { p.2 with
        replacements := p.2.replacements.insertAll (d.folderReport c).replacements.entries }) := by
  unfold withExpandedFolder folderReport
  cases hfolder : d.folder? with
  | none =>
      rw [innerContext_of_none hfolder, expandInPlace, hfolder]
      dsimp only [Option.map_none, Option.none_or]
      cases d.expand c <;> rfl
  | some folder =>
      rw [innerContext_of_some hfolder, expandInPlace, hfolder]
      dsimp only [Option.map_some, Option.some_or]
      cases expand (c.withContainerFolder (Template.expand c folder).text)
        { d with workspaceFolder := some (Template.expand c folder).text } <;> rfl

theorem exists_expand_of_expandInPlace {c : Context} {d e : Descriptor} {report : Report}
    (h : d.expandInPlace c = .ok (e, report)) :
    ∃ report', (d.withExpandedFolder c).expand (d.innerContext c) = .ok (e, report') ∧
      report.replacements =
        report'.replacements.insertAll (d.folderReport c).replacements.entries := by
  rw [expandInPlace_eq_map] at h
  cases hexpand : (d.withExpandedFolder c).expand (d.innerContext c) with
  | error _ =>
      rw [hexpand] at h
      cases h
  | ok p =>
      rw [hexpand] at h
      obtain ⟨rfl, rfl⟩ := Prod.mk.inj (Except.ok.inj h)
      exact ⟨p.2, rfl, rfl⟩

theorem containerEnv_of_expandInPlace {c : Context} {d e : Descriptor} {report : Report}
    (h : d.expandInPlace c = .ok (e, report)) :
    e.containerEnv =
      d.containerEnv.map fun template => (Template.expand (d.innerContext c) template).text := by
  obtain ⟨report', hexpand, -⟩ := exists_expand_of_expandInPlace h
  rw [(eq_of_expand hexpand).1]
  rfl

theorem folder?_mapTemplates (f : String → String) (d : Descriptor) :
    (d.mapTemplates f).folder? = (d.workspaceFolder.map f).filter (!·.isEmpty) := rfl

theorem folder?_of_expandInPlace {c : Context} {d e : Descriptor} {report : Report}
    (h : d.expandInPlace c = .ok (e, report)) :
    e.folder? = (d.folder?.map fun _ => (Template.expand (d.innerContext c)
      (d.innerContext c).containerFolder).text).filter (!·.isEmpty) := by
  obtain ⟨report', hexpand, -⟩ := exists_expand_of_expandInPlace h
  rw [(eq_of_expand hexpand).1, folder?_mapTemplates]
  cases hfolder : d.folder? with
  | none =>
      rw [workspaceFolder_withExpandedFolder, hfolder, Option.map_none, Option.none_or,
        Option.map_none, Option.filter_none]
      cases hdeclared : d.workspaceFolder with
      | none => rfl
      | some folder =>
          -- what is not counted as a folder is empty, and stays so
          have hempty : folder.isEmpty = true := by
            rw [folder?, hdeclared, Option.filter_some] at hfolder
            by_contra hne
            rw [if_pos (by simp [hne])] at hfolder
            cases hfolder
          have hnot : '$' ∉ folder.toList := by
            rw [String.isEmpty_iff.1 hempty]
            decide
          rw [Option.map_some, expand_of_not_mem hnot, Option.filter_some, hempty]
          rfl
  | some folder =>
      rw [workspaceFolder_withExpandedFolder, hfolder, innerContext_of_some hfolder,
        Context.containerFolder_withContainerFolder, Option.map_some, Option.some_or,
        Option.map_some, Option.map_some]

end Descriptor

namespace Launch

theorem ofDescriptor_of_plan {c : Context} {o : Options} {d : Descriptor} {launch : Launch}
    (h : plan c o d = .ok launch) :
    ∃ e report, d.expandInPlace c = .ok (e, report) ∧ ofDescriptor o e = .ok launch := by
  unfold plan at h
  split at h
  next => cases h
  next e report hexpand =>
    refine ⟨e, report, hexpand, ?_⟩
    split at h
    next => cases h
    next =>
      split at h
      next => cases h
      next launch' hlaunch =>
        split at h
        next => cases h
        next =>
          cases h
          exact hlaunch

theorem eq_of_ofDescriptor {o : Options} {e : Descriptor} {launch : Launch}
    (h : ofDescriptor o e = .ok launch) :
    launch.workspaceFolder = folderOf o e ∧
      launch.environment = .ofList e.containerEnv.entries := by
  unfold ofDescriptor at h
  split at h
  next => cases h
  next =>
    split at h
    next => cases h
    next =>
      cases h
      exact ⟨rfl, rfl⟩

theorem environment_plan {c : Context} {o : Options} {d : Descriptor} {launch : Launch}
    (h : plan c o d = .ok launch) (key : String) :
    launch.environment.get? key =
      (d.containerEnv.get? key).map fun template => (expand (d.innerContext c) template).text := by
  obtain ⟨e, report, hexpand, hlaunch⟩ := ofDescriptor_of_plan h
  rw [(eq_of_ofDescriptor hlaunch).2, SortedMap.get?_ofList e.containerEnv.distinct]
  show e.containerEnv.get? key = _
  rw [Descriptor.containerEnv_of_expandInPlace hexpand, OrderedMap.get?_map]

theorem workspaceFolder_plan {c : Context} {o : Options} {d : Descriptor} {launch : Launch}
    (h : plan c o d = .ok launch) :
    launch.workspaceFolder = ((d.folder?.map fun _ => (expand (d.innerContext c)
      (d.innerContext c).containerFolder).text).filter (!·.isEmpty)).getD
        (Context.defaultFolder o.root) := by
  obtain ⟨e, report, hexpand, hlaunch⟩ := ofDescriptor_of_plan h
  rw [(eq_of_ofDescriptor hlaunch).1, folderOf, Descriptor.folder?_of_expandInPlace hexpand]

/-- The launch, the value of the key and the declared folder, expanded once, name one folder. -/
def AgreesOn (launch : Launch) (c : Context) (d : Descriptor) (key : String) : Prop :=
  launch.environment.get? key = some launch.workspaceFolder ∧
    ∀ folder, d.folder? = some folder → launch.workspaceFolder = (expand c folder).text

theorem agreesOn_iff_referredFolder {c : Context} {o : Options} {d : Descriptor} {launch : Launch}
    {key : String} (h : plan c o d = .ok launch)
    (hkey : d.containerEnv.get? key = some "$\x7bcontainerWorkspaceFolder\x7d") :
    launch.AgreesOn c d key ↔ referredFolder (d.innerContext c) = launch.workspaceFolder ∧
      ∀ folder, d.folder? = some folder → launch.workspaceFolder = (expand c folder).text := by
  rw [AgreesOn, environment_plan h, hkey, Option.map_some, expand_containerFolder, Option.some_inj]

theorem agreesOn_iff_of_none {c : Context} {o : Options} {d : Descriptor} {launch : Launch}
    {key : String} (h : plan c o d = .ok launch)
    (hkey : d.containerEnv.get? key = some "$\x7bcontainerWorkspaceFolder\x7d")
    (hroot : c.containerFolder = Context.defaultFolder o.root) (hfolder : d.folder? = none) :
    launch.AgreesOn c d key ↔ c.containerFolder ≠ "" ∧ referredFolder c = c.containerFolder := by
  have hlaunch := workspaceFolder_plan h
  rw [hfolder, Option.map_none, Option.filter_none, Option.getD_none, ← hroot] at hlaunch
  rw [agreesOn_iff_referredFolder h hkey, Descriptor.innerContext_of_none hfolder, hlaunch]
  have hne : c.containerFolder ≠ "" := by
    rw [hroot]
    exact defaultFolder_ne_empty o.root
  constructor
  · rintro ⟨hreferred, -⟩
    exact ⟨hne, hreferred⟩
  · rintro ⟨-, hreferred⟩
    refine ⟨hreferred, fun folder hsome => ?_⟩
    rw [hfolder] at hsome
    cases hsome

theorem agreesOn_iff_of_some {c : Context} {o : Options} {d : Descriptor} {launch : Launch}
    {key folder : String} (h : plan c o d = .ok launch)
    (hkey : d.containerEnv.get? key = some "$\x7bcontainerWorkspaceFolder\x7d")
    (hfolder : d.folder? = some folder) :
    launch.AgreesOn c d key ↔ (d.innerContext c).containerFolder ≠ "" ∧
      referredFolder (d.innerContext c) = (d.innerContext c).containerFolder ∧
      (expand (d.innerContext c) (d.innerContext c).containerFolder).text =
        (d.innerContext c).containerFolder := by
  have hlaunch := workspaceFolder_plan h
  have honce : (d.innerContext c).containerFolder = (expand c folder).text := by
    rw [Descriptor.innerContext_of_some hfolder, Context.containerFolder_withContainerFolder]
  rw [agreesOn_iff_referredFolder h hkey]
  generalize d.innerContext c = inner at hlaunch honce ⊢
  rw [hfolder, Option.map_some, Option.filter_some] at hlaunch
  constructor
  · rintro ⟨hreferred, hagree⟩
    have hsame : launch.workspaceFolder = inner.containerFolder := by
      rw [honce]
      exact hagree folder hfolder
    rw [hsame] at hreferred hlaunch
    by_cases hempty : (expand inner inner.containerFolder).text.isEmpty = true
    · -- the launch falls back on the default folder, whose expansion is not empty
      rw [if_neg (by simpa using hempty), Option.getD_none] at hlaunch
      rw [hlaunch] at hempty
      exact absurd (String.isEmpty_iff.1 hempty) (expand_defaultFolder_ne_empty inner o.root)
    · rw [if_pos (by simpa using hempty), Option.getD_some] at hlaunch
      refine ⟨fun hnil => hempty ?_, hreferred, hlaunch.symm⟩
      rw [← hlaunch, hnil]
      rfl
  · rintro ⟨hne, hreferred, htwice⟩
    have hsame : launch.workspaceFolder = inner.containerFolder := by
      rw [hlaunch, htwice, if_pos (by simpa using hne), Option.getD_some]
    refine ⟨hreferred.trans hsame.symm, fun folder' hfolder' => ?_⟩
    rw [hfolder] at hfolder'
    rw [hsame, honce, Option.some.inj hfolder']

/-- The folder of a launch is the one that its templates refer to exactly when this is not empty and
stays the same where it is put in for a reference and where it is expanded for the second time. -/
theorem agreesOn_iff {o : Options} {env : String → Option String} {d : Descriptor} {launch : Launch}
    {key : String} (h : plan (Context.ofRoot o.root env) o d = .ok launch)
    (hkey : d.containerEnv.get? key = some "$\x7bcontainerWorkspaceFolder\x7d") :
    let inner := d.innerContext (Context.ofRoot o.root env)
    (launch.AgreesOn (Context.ofRoot o.root env) d key ↔
      inner.containerFolder ≠ "" ∧ referredFolder inner = inner.containerFolder ∧
        (d.folder?.isSome → (expand inner inner.containerFolder).text = inner.containerFolder)) ∧
    ('$' ∉ inner.containerFolder.toList →
      (launch.AgreesOn (Context.ofRoot o.root env) d key ↔ inner.containerFolder ≠ "")) := by
  intro inner
  have hiff : launch.AgreesOn (Context.ofRoot o.root env) d key ↔
      inner.containerFolder ≠ "" ∧ referredFolder inner = inner.containerFolder ∧
        (d.folder?.isSome → (expand inner inner.containerFolder).text = inner.containerFolder) := by
    cases hfolder : d.folder? with
    | none =>
        have hinner : inner = Context.ofRoot o.root env := Descriptor.innerContext_of_none hfolder
        rw [agreesOn_iff_of_none h hkey rfl hfolder, hinner]
        simp
    | some folder =>
        rw [agreesOn_iff_of_some h hkey hfolder]
        simp [inner]
  refine ⟨hiff, fun hplain => ?_⟩
  rw [hiff, referredFolder_of_not_mem hplain, expand_of_not_mem hplain]
  simp

def optionsAt (root : String) : Options :=
  { root, mounts := [], ports := [], command := [] }

def withFolder (folder : String) : Descriptor :=
  { Descriptor.empty with
    selector := some (.image "alpine")
    workspaceFolder := some folder
    containerEnv := .ofList [("WS", "$\x7bcontainerWorkspaceFolder\x7d")] }

theorem get?_withFolder (folder : String) :
    (withFolder folder).containerEnv.get? "WS" = some "$\x7bcontainerWorkspaceFolder\x7d" := rfl

def folders (o : Options) (env : String → Option String) (d : Descriptor) :
    Option (Option String × String) :=
  (plan (Context.ofRoot o.root env) o d).toOption.map fun launch =>
    (launch.environment.get? "WS", launch.workspaceFolder)

theorem exists_plan_of_folders {o : Options} {env : String → Option String} {d : Descriptor}
    {p : Option String × String} (h : folders o env d = some p) : ∃ launch,
      plan (Context.ofRoot o.root env) o d = .ok launch ∧
      launch.environment.get? "WS" = p.1 ∧ launch.workspaceFolder = p.2 := by
  unfold folders at h
  cases hplan : plan (Context.ofRoot o.root env) o d with
  | error e =>
      rw [hplan] at h
      cases h
  | ok launch =>
      rw [hplan] at h
      cases h
      exact ⟨launch, rfl, rfl, rfl⟩

theorem agreesOn_app :
    let o := optionsAt "/home/u/app"
    let d := withFolder "/src/$localWorkspaceFolderBasename"
    let c := Context.ofRoot o.root fun _ => none
    ∃ launch, plan c o d = .ok launch ∧
      d.containerEnv.get? "WS" = some "$\x7bcontainerWorkspaceFolder\x7d" ∧
      launch.AgreesOn c d "WS" := by
  intro o d c
  have hfolders : folders o (fun _ => none) d = some (some "/src/app", "/src/app") := by
    decide +kernel
  obtain ⟨launch, hplan, -, -⟩ := exists_plan_of_folders hfolders
  have hplain : '$' ∉ (d.innerContext c).containerFolder.toList := by decide +kernel
  have hne : (d.innerContext c).containerFolder ≠ "" := by decide +kernel
  obtain ⟨-, hagrees⟩ := agreesOn_iff hplan (get?_withFolder _)
  exact ⟨launch, hplan, get?_withFolder _, (hagrees hplain).2 hne⟩

def rereadEnv (name : String) : Option String :=
  if name = "WS" then some "/src/$localWorkspaceFolderBasename" else none

/-- A folder may expand to nothing, and a value of the host may hold what the second expansion
reads. -/
theorem not_agreesOn :
    (¬ ∀ (o : Options) (env : String → Option String) (d : Descriptor) (launch : Launch)
        (key : String),
      (∀ name value, env name = some value → '$' ∉ value.toList) →
      plan (Context.ofRoot o.root env) o d = .ok launch →
      d.containerEnv.get? key = some "$\x7bcontainerWorkspaceFolder\x7d" →
      launch.AgreesOn (Context.ofRoot o.root env) d key) ∧
    ¬ ∀ (o : Options) (env : String → Option String) (d : Descriptor) (launch : Launch)
        (key : String),
      (d.innerContext (Context.ofRoot o.root env)).containerFolder ≠ "" →
      plan (Context.ofRoot o.root env) o d = .ok launch →
      d.containerEnv.get? key = some "$\x7bcontainerWorkspaceFolder\x7d" →
      launch.AgreesOn (Context.ofRoot o.root env) d key := by
  constructor
  · intro h
    have hfolders : folders (optionsAt "/") (fun _ => none)
        (withFolder "$localWorkspaceFolderBasename") = some (some "", "/workspaces/") := by
      decide +kernel
    obtain ⟨launch, hplan, hwhere, hlaunch⟩ := exists_plan_of_folders hfolders
    have hunset : ∀ (_ value : String), none = some value → '$' ∉ value.toList :=
      fun _ _ hset => absurd hset (Option.some_ne_none _).symm
    obtain ⟨hagrees, -⟩ := h _ _ _ launch "WS" hunset hplan (get?_withFolder _)
    rw [hwhere, hlaunch] at hagrees
    exact absurd hagrees (by decide)
  · intro h
    have hfolders : folders (optionsAt "/home/u/app") rereadEnv
        (withFolder "$\x7blocalEnv:WS\x7d") =
          some (some "/src//home/u/appBasename", "/src/app") := by decide +kernel
    have hne : ((withFolder "$\x7blocalEnv:WS\x7d").innerContext
        (Context.ofRoot (optionsAt "/home/u/app").root rereadEnv)).containerFolder ≠ "" := by
      decide +kernel
    obtain ⟨launch, hplan, hwhere, hlaunch⟩ := exists_plan_of_folders hfolders
    obtain ⟨hagrees, -⟩ := h _ _ _ launch "WS" hne hplan (get?_withFolder _)
    rw [hwhere, hlaunch] at hagrees
    exact absurd hagrees (by decide)

end Launch

end Devcontainer
