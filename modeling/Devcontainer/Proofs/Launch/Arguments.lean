import Mathlib.Data.List.Basic
import Devcontainer.Proofs.Launch.Layout

/-!
# The argument vector of a launch

The vector can be read again. Where no value looks like a flag, a reader of run vectors finds the
image of the launch in it, past all blocks and the launch's own run arguments and never in the
command. Where there are no run arguments, two launches with one vector are one launch, up to the
two ways of saying that the workspace is not mounted.
-/

namespace Devcontainer

namespace Launch

/-! ## The vector in blocks -/

def emittedMount? (l : Launch) : Option String :=
  if l.mountsWorkspace then some l.workspaceMount else none

def assignment (entry : String × String) : String :=
  entry.1 ++ "=" ++ entry.2

def leading (l : Launch) : List Block :=
  [.repeated "--name" l.name.toList, .repeated "--mount" l.emittedMount?.toList]

def middle (l : Launch) : List Block :=
  [.repeated "-e" (l.environment.entries.map assignment), .repeated "-p" l.ports]

def trailing (l : Launch) : List Block :=
  [.repeated "--mount" l.mounts, .repeated "--cap-add" l.capAdd,
    .repeated "--security-opt" l.securityOpt, .switch "--init" l.init,
    .switch "--privileged" l.privileged, .repeated "-u" l.user.toList]

theorem arguments_eq (l : Launch) :
    l.arguments = "run" :: "--rm" :: "-it" :: (layout l.leading ++ "-w" :: l.workspaceFolder ::
      (layout l.middle ++ (l.runArgs ++ (layout l.trailing ++ l.image :: l.command)))) := by
  have hmount : flagged "--mount" l.emittedMount?.toList =
      if l.mountsWorkspace then ["--mount", l.workspaceMount] else [] := by
    rw [emittedMount?]
    split <;> rfl
  simp only [arguments, layout, leading, middle, trailing, List.flatMap_cons, List.flatMap_nil,
    Block.tokens, hmount, List.append_assoc, List.cons_append, List.nil_append, List.append_nil]
  rfl

/-! ## Finding the image -/

/-- No value that the launch puts behind a flag starts with a dash itself. -/
structure NoDashes (l : Launch) : Prop where
  name : ∀ name ∈ l.name, RunVector.isFlag name = false
  workspaceMount : l.mountsWorkspace = true → RunVector.isFlag l.workspaceMount = false
  workspaceFolder : RunVector.isFlag l.workspaceFolder = false
  environment : ∀ entry ∈ l.environment.entries, RunVector.isFlag entry.1 = false
  ports : ∀ port ∈ l.ports, RunVector.isFlag port = false
  mounts : ∀ mount ∈ l.mounts, RunVector.isFlag mount = false
  capAdd : ∀ capability ∈ l.capAdd, RunVector.isFlag capability = false
  securityOpt : ∀ option ∈ l.securityOpt, RunVector.isFlag option = false
  user : ∀ user ∈ l.user, RunVector.isFlag user = false

/-- An assignment starts as its key does, and with `=` where the key is empty. -/
theorem isFlag_assignment {entry : String × String} (h : RunVector.isFlag entry.1 = false) :
    RunVector.isFlag (assignment entry) = false := by
  have htext : (assignment entry).toList = entry.1.toList ++ '=' :: entry.2.toList := by
    simp [assignment]
  rw [RunVector.isFlag] at h ⊢
  rw [htext]
  cases hkey : entry.1.toList with
  | nil => rfl
  | cons c cs =>
      rw [hkey] at h
      exact h

theorem readable_leading {l : Launch} (h : l.NoDashes) : ∀ b ∈ l.leading, b.Readable := by
  have hmount : ∀ mount ∈ l.emittedMount?, RunVector.isFlag mount = false := by
    intro mount hmem
    rw [emittedMount?] at hmem
    split at hmem
    next hon =>
      cases hmem
      exact h.workspaceMount hon
    next => cases hmem
  simp only [leading, List.forall_mem_cons, Block.Readable, Option.mem_toList]
  exact ⟨⟨by decide, by decide, h.name⟩, ⟨by decide, by decide, hmount⟩, List.forall_mem_nil _⟩

theorem readable_middle {l : Launch} (h : l.NoDashes) : ∀ b ∈ l.middle, b.Readable := by
  have henv : ∀ value ∈ l.environment.entries.map assignment, RunVector.isFlag value = false :=
    List.forall_mem_map.2 fun entry hentry => isFlag_assignment (h.environment entry hentry)
  simp only [middle, List.forall_mem_cons, Block.Readable]
  exact ⟨⟨by decide, by decide, henv⟩, ⟨by decide, by decide, h.ports⟩, List.forall_mem_nil _⟩

theorem readable_trailing {l : Launch} (h : l.NoDashes) : ∀ b ∈ l.trailing, b.Readable := by
  simp only [trailing, List.forall_mem_cons, Block.Readable, Option.mem_toList]
  exact ⟨⟨by decide, by decide, h.mounts⟩, ⟨by decide, by decide, h.capAdd⟩,
    ⟨by decide, by decide, h.securityOpt⟩, ⟨by decide, by decide⟩, ⟨by decide, by decide⟩,
    ⟨by decide, by decide, h.user⟩, List.forall_mem_nil _⟩

def flags (l : Launch) : List String :=
  ["--rm"] ++ (["-it"] ++ (layout l.leading ++ (["-w", l.workspaceFolder] ++ (layout l.middle ++
    (l.runArgs ++ layout l.trailing)))))

theorem arguments_eq_flags (l : Launch) :
    l.arguments = "run" :: (l.flags ++ l.image :: l.command) := by
  simp [arguments_eq, flags]

theorem passes_flags {l : Launch} (hrun : RunVector.positional? l.runArgs = .ok none)
    (hdashes : l.NoDashes) : RunVector.Passes l.flags := by
  have hrm : RunVector.Passes ["--rm"] := RunVector.passes_switch (by decide) (by decide)
  have hit : RunVector.Passes ["-it"] := RunVector.passes_switch (by decide) (by decide)
  have hfolder : RunVector.Passes ["-w", l.workspaceFolder] :=
    RunVector.passes_pair (by decide) (by decide) hdashes.workspaceFolder
  have hblocks : RunVector.Passes (layout l.middle ++ (l.runArgs ++ layout l.trailing)) :=
    (passes_layout (readable_middle hdashes)).append <|
      (RunVector.passes_of_positional? hrun).append (passes_layout (readable_trailing hdashes))
  exact hrm.append <| hit.append <| (passes_layout (readable_leading hdashes)).append <|
    hfolder.append hblocks

/-- The vector of a launch whose values are no flags passes the check of run vectors, and the image
that is found in it is the image of the launch, whatever the command. -/
theorem image_arguments {l : Launch} (himage : l.image ≠ "")
    (hword : RunVector.isFlag l.image = false)
    (hrun : RunVector.positional? l.runArgs = .ok none) (hdashes : l.NoDashes) :
    RunVector.check l.arguments = .ok () ∧ RunVector.image l.arguments = .ok l.image := by
  rw [arguments_eq_flags]
  exact (passes_flags hrun hdashes).image_found himage hword l.command

def crowded : Launch where
  image := "alpine"
  workspaceFolder := "/w"
  workspaceMount := "type=bind,source=/s,target=/w"
  environment := .ofList [("A", "-x"), ("", "--init")]
  ports := ["80:80", "90:90"]
  mounts := ["type=tmpfs,target=/t"]
  capAdd := ["SYS_PTRACE"]
  securityOpt := ["seccomp=unconfined"]
  init := true
  privileged := true
  user := some "me"
  name := some "box"
  runArgs := ["--network", "host", "--gpus=all"]
  command := ["--name", "-w", "other"]

theorem image_arguments_crowded :
    (crowded.image ≠ "" ∧ RunVector.isFlag crowded.image = false ∧
      RunVector.positional? crowded.runArgs = .ok none ∧ crowded.NoDashes) ∧
    RunVector.check crowded.arguments = .ok () ∧ RunVector.image crowded.arguments = .ok "alpine" := by
  have hne : crowded.image ≠ "" := by decide
  have hword : RunVector.isFlag crowded.image = false := by decide
  have hrun : RunVector.positional? crowded.runArgs = .ok none := rfl
  have hdashes : crowded.NoDashes := by constructor <;> decide
  exact ⟨⟨hne, hword, hrun, hdashes⟩, image_arguments hne hword hrun hdashes⟩

/-! ## Reading the launch back -/

theorem eq_of_toList_eq {α : Type} {a b : Option α} (h : a.toList = b.toList) : a = b := by
  simpa using congrArg List.head? h

theorem assignment_inj {entry entry' : String × String} (hkey : '=' ∉ entry.1.toList)
    (hkey' : '=' ∉ entry'.1.toList) (h : assignment entry = assignment entry') :
    entry = entry' := by
  have htext : entry.1.toList ++ '=' :: entry.2.toList =
      entry'.1.toList ++ '=' :: entry'.2.toList := by
    simpa [assignment] using congrArg String.toList h
  -- the key ends at the first `=` of the assignment
  have hlength : entry.1.toList.length = entry'.1.toList.length := by
    simpa [List.idxOf_append_of_notMem, hkey, hkey'] using congrArg (List.idxOf '=') htext
  obtain ⟨hkeys, hvalues⟩ := List.append_inj htext hlength
  exact Prod.ext (String.toList_inj.1 hkeys) (String.toList_inj.1 (List.cons.inj hvalues).2)

theorem map_assignment_inj {entries entries' : List (String × String)}
    (hkeys : ∀ entry ∈ entries, '=' ∉ entry.1.toList)
    (hkeys' : ∀ entry ∈ entries', '=' ∉ entry.1.toList)
    (h : entries.map assignment = entries'.map assignment) : entries = entries' := by
  induction entries generalizing entries' with
  | nil => exact (List.map_eq_nil_iff.1 h.symm).symm
  | cons entry entries ih =>
      cases entries' with
      | nil => cases h
      | cons entry' entries' =>
          obtain ⟨hkey, hkeys⟩ := List.forall_mem_cons.1 hkeys
          obtain ⟨hkey', hkeys'⟩ := List.forall_mem_cons.1 hkeys'
          obtain ⟨hfirst, hrest⟩ := List.cons.inj h
          rw [assignment_inj hkey hkey' hfirst, ih hkeys hkeys' hrest]

theorem emittedMount?_eq_none_iff {l : Launch} :
    l.emittedMount? = none ↔ l.workspaceMount ∈ ["", "none"] := by
  rw [emittedMount?, mountsWorkspace]
  by_cases hempty : l.workspaceMount = "" <;> by_cases hnone : l.workspaceMount = "none" <;>
    simp [hempty, hnone]

theorem eq_of_emittedMount? {l : Launch} {mount : String} (h : l.emittedMount? = some mount) :
    l.workspaceMount = mount := by
  rw [emittedMount?] at h
  split at h
  next => exact Option.some.inj h
  next => cases h

theorem emittedMount?_eq_iff {l l' : Launch} : l.emittedMount? = l'.emittedMount? ↔
    l.workspaceMount = l'.workspaceMount ∨
      l.workspaceMount ∈ ["", "none"] ∧ l'.workspaceMount ∈ ["", "none"] := by
  constructor
  · intro h
    cases hmount : l.emittedMount? with
    | none =>
        exact .inr ⟨emittedMount?_eq_none_iff.1 hmount, emittedMount?_eq_none_iff.1 (h ▸ hmount)⟩
    | some mount =>
        exact .inl ((eq_of_emittedMount? hmount).trans (eq_of_emittedMount? (h ▸ hmount)).symm)
  · rintro (hsame | ⟨hmount, hmount'⟩)
    · rw [emittedMount?, emittedMount?, mountsWorkspace, mountsWorkspace, hsame]
    · rw [emittedMount?_eq_none_iff.2 hmount, emittedMount?_eq_none_iff.2 hmount']

theorem arguments_of_runArgs {l : Launch} (h : l.runArgs = []) :
    l.arguments = "run" :: "--rm" :: "-it" :: (layout l.leading ++ "-w" :: l.workspaceFolder ::
      (layout (l.middle ++ l.trailing) ++ l.image :: l.command)) := by
  rw [arguments_eq, h, layout_append, List.nil_append, List.append_assoc]

theorem nodup_leading (l : Launch) : (l.leading.map Block.flag).Nodup := by
  show ["--name", "--mount"].Nodup
  decide

/-- The flags behind the workspace folder, where no run arguments divide them. -/
def laterFlags : List String :=
  ["-e", "-p", "--mount", "--cap-add", "--security-opt", "--init", "--privileged", "-u"]

theorem map_flag_middle_trailing (l : Launch) :
    (l.middle ++ l.trailing).map Block.flag = laterFlags := rfl

theorem isFlag_of_mem_laterFlags : ∀ flag ∈ laterFlags, RunVector.isFlag flag = true := by
  decide

theorem blocks_eq_of_arguments_eq {l l' : Launch} (hrun : l.runArgs = []) (hrun' : l'.runArgs = [])
    (himage : RunVector.isFlag l.image = false) (himage' : RunVector.isFlag l'.image = false)
    (h : l.arguments = l'.arguments) :
    l.leading = l'.leading ∧ l.workspaceFolder = l'.workspaceFolder ∧
      l.middle ++ l.trailing = l'.middle ++ l'.trailing ∧ l.image = l'.image ∧
      l.command = l'.command := by
  rw [arguments_of_runArgs hrun, arguments_of_runArgs hrun'] at h
  have hfolder : ∀ rest : List String, ∀ flag ∈ l.leading.map Block.flag,
      ("-w" :: rest).head? ≠ some flag := by
    simp [leading, Block.flag]
  -- the image is no flag, so the blocks before it end where it stands
  have hend : ∀ image rest, RunVector.isFlag image = false →
      ∀ flag ∈ (l.middle ++ l.trailing).map Block.flag, (image :: rest).head? ≠ some flag := by
    intro image rest hword flag hflag hhead
    cases hhead
    rw [isFlag_of_mem_laterFlags image hflag] at hword
    cases hword
  have hdistinct : ((l.middle ++ l.trailing).map Block.flag).Nodup := by
    rw [map_flag_middle_trailing]
    decide
  have hsame : l.leading.map Block.emptied = l'.leading.map Block.emptied := rfl
  have hsame' : (l.middle ++ l.trailing).map Block.emptied =
      (l'.middle ++ l'.trailing).map Block.emptied := rfl
  obtain ⟨hleading, h⟩ := layout_append_inj hsame l.nodup_leading (hfolder _) (hfolder _)
    (List.cons.inj (List.cons.inj (List.cons.inj h).2).2).2
  obtain ⟨hworkspace, h⟩ := List.cons.inj (List.cons.inj h).2
  obtain ⟨hblocks, h⟩ := layout_append_inj hsame' hdistinct (hend _ _ himage)
    (hend _ _ himage') h
  obtain ⟨himages, hcommand⟩ := List.cons.inj h
  exact ⟨hleading, hworkspace, hblocks, himages, hcommand⟩

/-- Without run arguments there is one launch for each vector, but for the two mounts that stand for
no mount of the workspace. -/
theorem arguments_eq_iff {l l' : Launch} (hrun : l.runArgs = []) (hrun' : l'.runArgs = [])
    (himage : RunVector.isFlag l.image = false) (himage' : RunVector.isFlag l'.image = false)
    (hkeys : ∀ entry ∈ l.environment.entries, '=' ∉ entry.1.toList)
    (hkeys' : ∀ entry ∈ l'.environment.entries, '=' ∉ entry.1.toList) :
    l.arguments = l'.arguments ↔
      { l with workspaceMount := l'.workspaceMount } = l' ∧
        (l.workspaceMount = l'.workspaceMount ∨
          l.workspaceMount ∈ ["", "none"] ∧ l'.workspaceMount ∈ ["", "none"]) := by
  rw [← emittedMount?_eq_iff]
  constructor
  · intro h
    obtain ⟨hleading, hfolder, hblocks, himages, hcommand⟩ :=
      blocks_eq_of_arguments_eq hrun hrun' himage himage' h
    simp only [leading, List.cons.injEq, Block.repeated.injEq, true_and, and_true] at hleading
    simp only [middle, trailing, List.cons_append, List.nil_append, List.cons.injEq,
      Block.repeated.injEq, Block.switch.injEq, true_and, and_true] at hblocks
    obtain ⟨hname, hmount⟩ := hleading
    obtain ⟨hentries, hports, hmounts, hcap, hsecurity, hinit, hprivileged, huser⟩ := hblocks
    have henv : l.environment = l'.environment :=
      SortedMap.ext (map_assignment_inj hkeys hkeys' hentries)
    refine ⟨?_, eq_of_toList_eq hmount⟩
    cases l
    cases l'
    simp only [Launch.mk.injEq]
    exact ⟨himages, hfolder, trivial, henv, hports, hmounts, hcap, hsecurity, hinit, hprivileged,
      eq_of_toList_eq huser, eq_of_toList_eq hname, hrun.trans hrun'.symm, hcommand⟩
  · rintro ⟨hsame, hmount⟩
    rw [arguments_eq, arguments_eq, leading, leading, hmount, ← hsame]
    rfl

def confusing (mount : String) : Launch where
  image := "alpine"
  workspaceFolder := "-w"
  workspaceMount := mount
  environment := .ofList [("A", "B=C"), ("-p", "--init")]
  ports := ["--mount", "-p"]
  mounts := ["--cap-add"]
  capAdd := []
  securityOpt := ["--privileged"]
  init := false
  privileged := true
  user := none
  name := some "-w"
  runArgs := []
  command := ["--init"]

theorem arguments_eq_iff_confusing :
    ((confusing "").runArgs = [] ∧ RunVector.isFlag (confusing "").image = false ∧
      ∀ entry ∈ (confusing "").environment.entries, '=' ∉ entry.1.toList) ∧
    (confusing "").arguments = (confusing "none").arguments ∧
    (confusing "").arguments ≠ (confusing "tmp").arguments := by
  have himage : RunVector.isFlag (confusing "").image = false := by decide
  have hkeys : ∀ entry ∈ (confusing "").environment.entries, '=' ∉ entry.1.toList := by decide
  have hsame : (confusing "").arguments = (confusing "none").arguments :=
    (arguments_eq_iff rfl rfl himage himage hkeys hkeys).2 ⟨rfl, .inr ⟨by decide, by decide⟩⟩
  refine ⟨⟨rfl, himage, hkeys⟩, hsame, fun h => ?_⟩
  have hrun : (confusing "tmp").runArgs = [] := rfl
  exact absurd ((arguments_eq_iff rfl hrun himage himage hkeys hkeys).1 h).2 (by decide)

end Launch

end Devcontainer
