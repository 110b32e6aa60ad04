import Devcontainer.CommandLine.Run
import Devcontainer.Proofs.Document.Numeral
import Devcontainer.Proofs.Launch.Order
import Devcontainer.Proofs.Mount.Reading
import Devcontainer.Proofs.Port
import Devcontainer.Proofs.Text.Lines
import Mathlib.Tactic.MkIffOfInductiveProp

/-!
# Arguments in lines

A launch is shown with one argument a line. Nothing keeps a line feed out of the texts that a launch
is made from, and each that comes into an argument makes one line more. The lines are the arguments
exactly when none of these texts has a line feed.
-/

namespace Devcontainer

open Text

/-- An empty text has no line feed, so it does not matter that empty texts are left out. -/
theorem oneLine_filter_iff {text? : Option String} :
    (∀ text ∈ (text?.filter (!·.isEmpty)).toList, OneLine text) ↔
      ∀ text ∈ text?, OneLine text := by
  cases text? with
  | none => simp
  | some text =>
      by_cases hempty : text = ""
      · simp [hempty, OneLine]
      · simp [hempty]

namespace Mount

@[mk_iff] structure Unbroken (m : Mount) : Prop where
  source : ∀ source ∈ m.source, OneLine source
  target : OneLine m.target
  extra : ∀ option ∈ m.extra, OneLine option

theorem oneLine_canonical_iff {m : Mount} : OneLine m.canonical ↔ m.Unbroken := by
  have hkind : OneLine ("type=" ++ m.kind.name) := by cases m.kind <;> decide
  have hsource : (∀ option ∈ ((m.source.filter (!·.isEmpty)).map ("source=" ++ ·)).toList,
      OneLine option) ↔ ∀ source ∈ m.source, OneLine source := by
    have hkey : OneLine "source=" := by decide
    rw [Option.toList_map, List.forall_mem_map, ← oneLine_filter_iff]
    simp only [oneLine_append, hkey, true_and]
  have htarget : OneLine ("target=" ++ m.target) ↔ OneLine m.target :=
    oneLine_append.trans (and_iff_right (by decide))
  have hreadOnly : ∀ option ∈ (if m.readOnly then ["readonly"] else []), OneLine option := by
    cases m.readOnly <;> decide
  rw [canonical, oneLine_intercalate (by decide), options_eq, declaredOptions, unbroken_iff]
  simp only [List.forall_mem_append, List.forall_mem_singleton, hsource, htarget, hkind, true_and,
    and_true, iff_true_intro hreadOnly, and_assoc]

end Mount

theorem Port.oneLine_mapping_iff {p : Port} :
    OneLine p.mapping ↔ ∀ text, p = .text text → OneLine text := by
  cases p with
  | text s => simp [mapping]
  | number n =>
      have hdecimal : OneLine (decimal n) := by
        rw [OneLine, decimal, String.toList_ofList]
        exact fun hmem => absurd (Document.isDigit_of_mem_toDigits _ hmem) (by decide)
      have hcolon : OneLine ":" := by decide
      simp [mapping, hdecimal, hcolon]

namespace Launch

open CommandLine

/-! ## The values among the arguments -/

namespace Block

def values : Block → List String
  | repeated _ values => values
  | switch _ _ => []

theorem oneLine_tokens_iff {b : Block} (hflag : OneLine b.flag) :
    (∀ token ∈ b.tokens, OneLine token) ↔ ∀ value ∈ b.values, OneLine value := by
  cases b with
  | repeated flag values =>
      have hword : OneLine flag := hflag
      have hpair : ∀ value, (∀ token ∈ [flag, value], OneLine token) ↔ OneLine value := by
        intro value
        rw [List.forall_mem_cons, List.forall_mem_singleton, and_iff_right hword]
      simp only [tokens_repeated, flagged, Block.values, List.forall_mem_flatMap, hpair]
  | switch flag on =>
      refine iff_of_true ?_ (List.forall_mem_nil _)
      cases on with
      | true => exact List.forall_mem_singleton.2 hflag
      | false => exact List.forall_mem_nil _

end Block

theorem oneLine_layout_iff {blocks : List Block}
    (hflags : ∀ flag ∈ blocks.map Block.flag, OneLine flag) :
    (∀ token ∈ layout blocks, OneLine token) ↔
      ∀ value ∈ blocks.flatMap Block.values, OneLine value := by
  rw [layout, List.forall_mem_flatMap, List.forall_mem_flatMap]
  exact forall₂_congr fun b hb => Block.oneLine_tokens_iff (hflags _ (List.mem_map_of_mem hb))

def values (l : Launch) : List String :=
  l.leading.flatMap Block.values ++ l.workspaceFolder :: (l.middle.flatMap Block.values ++
    (l.runArgs ++ (l.trailing.flatMap Block.values ++ l.image :: l.command)))

theorem oneLine_arguments_iff {l : Launch} :
    (∀ argument ∈ l.arguments, OneLine argument) ↔ ∀ value ∈ l.values, OneLine value := by
  have hleading : ∀ flag ∈ l.leading.map Block.flag, OneLine flag := by
    show ∀ flag ∈ ["--name", "--mount"], OneLine flag
    decide
  have hmiddle : ∀ flag ∈ l.middle.map Block.flag, OneLine flag := by
    show ∀ flag ∈ ["-e", "-p"], OneLine flag
    decide
  have htrailing : ∀ flag ∈ l.trailing.map Block.flag, OneLine flag := by
    show ∀ flag ∈ ["--mount", "--cap-add", "--security-opt", "--init", "--privileged", "-u"],
      OneLine flag
    decide
  have hwords : OneLine "run" ∧ OneLine "--rm" ∧ OneLine "-it" ∧ OneLine "-w" := by decide
  obtain ⟨hrun, hrm, hit, hw⟩ := hwords
  rw [arguments_eq, values]
  simp only [List.forall_mem_cons, List.forall_mem_append, oneLine_layout_iff hleading,
    oneLine_layout_iff hmiddle, oneLine_layout_iff htrailing, hrun, hrm, hit, hw, true_and]

theorem oneLine_emittedMount_iff {l : Launch} :
    (∀ mount ∈ l.emittedMount?.toList, OneLine mount) ↔ OneLine l.workspaceMount := by
  cases hmount : l.emittedMount? with
  | some mount => simp [eq_of_emittedMount? hmount]
  | none =>
      have hnone : ∀ mount ∈ ["", "none"], OneLine mount := by decide
      simp [hnone _ (emittedMount?_eq_none_iff.1 hmount)]

/-! ## The texts of a launch -/

/-- No text that the launch of an expanded descriptor is made from has a line feed. Of the mounts
those count that the launch has, and of the ports those that are given as texts. -/
@[mk_iff] structure Unbroken (o : Options) (e : Descriptor) : Prop where
  name : ∀ name ∈ e.name, OneLine name
  workspaceMount : OneLine (workspaceMountOf o e)
  workspaceFolder : OneLine (folderOf o e)
  environment : ∀ entry ∈ e.containerEnv.entries, OneLine entry.1 ∧ OneLine entry.2
  ports : ∀ text, .text text ∈ e.appPorts ++ o.ports ++ e.forwardPorts → OneLine text
  runArgs : ∀ argument ∈ e.runArgs.getD [], OneLine argument
  mounts : ∀ declared, declaredMounts e.mounts = .ok declared →
    ∀ mount ∈ Mount.inject declared o.mounts, mount.Unbroken
  capAdd : ∀ capability ∈ e.capAdd, OneLine capability
  securityOpt : ∀ option ∈ e.securityOpt, OneLine option
  user : ∀ user ∈ e.containerUser, OneLine user
  image : ∀ image ∈ e.image?, OneLine image
  command : ∀ word ∈ o.command, OneLine word

theorem usesCompose_of_imageOf {d : Descriptor} {image : String} (h : imageOf d = .ok image) :
    d.usesCompose = false := by
  rw [Descriptor.usesCompose, (selector_of_imageOf h).1]
  rfl

theorem oneLine_assignments_iff {env : OrderedMap String} :
    (∀ value ∈ (SortedMap.ofList env.entries).entries.map assignment, OneLine value) ↔
      ∀ entry ∈ env.entries, OneLine entry.1 ∧ OneLine entry.2 := by
  have hsign : OneLine "=" := by decide
  have hassignment : ∀ entry : String × String,
      OneLine (assignment entry) ↔ OneLine entry.1 ∧ OneLine entry.2 := by
    simp [assignment, hsign]
  rw [List.forall_mem_map]
  simp only [hassignment, (SortedMap.perm_entries_ofList env.distinct).mem_iff]

theorem oneLine_portsOf_iff {o : Options} {e : Descriptor} (hcompose : e.usesCompose = false) :
    (∀ port ∈ portsOf o e, OneLine port) ↔
      ∀ text, .text text ∈ e.appPorts ++ o.ports ++ e.forwardPorts → OneLine text := by
  have hmem : ∀ mapping, mapping ∈ portsOf o e ↔
      ∃ port ∈ e.appPorts ++ o.ports ++ e.forwardPorts, port.mapping = mapping := by
    intro mapping
    rw [portsOf, hcompose, if_neg Bool.false_ne_true, Port.mem_collect]
    simp only [List.mem_append, or_assoc]
  constructor
  · intro h text htext
    exact h text ((hmem text).2 ⟨.text text, htext, rfl⟩)
  · intro h mapping hmapping
    obtain ⟨port, hport, rfl⟩ := (hmem mapping).1 hmapping
    exact Port.oneLine_mapping_iff.2 fun text htext => h text (htext ▸ hport)

theorem oneLine_values_iff {o : Options} {e : Descriptor} {launch : Launch}
    (h : ofDescriptor o e = .ok launch) :
    (∀ value ∈ launch.values, OneLine value) ↔ Unbroken o e := by
  unfold ofDescriptor at h
  split at h
  next => cases h
  next image himage =>
    split at h
    next => cases h
    next declared hdeclared =>
      cases h
      have himages : (∀ image' ∈ e.image?, OneLine image') ↔ OneLine image := by
        rw [Descriptor.image?, (selector_of_imageOf himage).1]
        simp [Selector.image?]
      have hmounts : (∀ value ∈ (Mount.inject declared o.mounts).map Mount.canonical,
          OneLine value) ↔ ∀ mounts, declaredMounts e.mounts = .ok mounts →
            ∀ mount ∈ Mount.inject mounts o.mounts, mount.Unbroken := by
        rw [List.forall_mem_map, hdeclared]
        simp [Mount.oneLine_canonical_iff]
      rw [unbroken_iff, values, leading, middle, trailing]
      simp only [List.flatMap_cons, List.flatMap_nil, Block.values, List.append_nil,
        List.nil_append, List.forall_mem_append, List.forall_mem_cons, oneLine_emittedMount_iff,
        oneLine_filter_iff, oneLine_assignments_iff, hmounts, himages,
        oneLine_portsOf_iff (usesCompose_of_imageOf himage), and_assoc]

/-! ## The lines of a launch -/

theorem lines_argumentLines (l : Launch) :
    lines (argumentLines l) = l.arguments.flatMap lines := by
  refine lines_intercalate ?_
  rw [arguments_eq]
  exact List.cons_ne_nil _ _

/-- The lines of a planned launch are its arguments, each cut at its line feeds, so every line feed
makes one line more. The lines are the arguments themselves exactly when no text that the launch is
made from has a line feed. -/
theorem lines_of_plan {c : Context} {o : Options} {d : Descriptor} {launch : Launch}
    (h : plan c o d = .ok launch) :
    lines (argumentLines launch) = launch.arguments.flatMap lines ∧
      (lines (argumentLines launch)).length =
        launch.arguments.length + lineFeeds (String.join launch.arguments) ∧
      (lines (argumentLines launch) = launch.arguments ↔ Unbroken o (d.expandedInPlace c)) := by
  obtain ⟨e, report, hexpand, hlaunch⟩ := ofDescriptor_of_plan h
  obtain rfl := Descriptor.eq_of_expandInPlace hexpand
  have hlines := lines_argumentLines launch
  refine ⟨hlines, ?_, ?_⟩
  · rw [hlines, length_flatMap_lines]
  · rw [hlines, flatMap_lines_eq_self_iff, oneLine_arguments_iff, oneLine_values_iff hlaunch]

def withMotd (text : String) : Descriptor :=
  { Descriptor.empty with
    selector := some (.image "alpine")
    containerEnv := .ofList [("MOTD", text)] }

theorem lines_of_plan_motd :
    let c := Context.ofRoot "/home/u/app" fun _ => none
    let o := { optionsAt "/home/u/app" with ports := [.number 80], command := ["sh", ""] }
    let d := withMotd "hello\r--privileged"
    ∃ launch, plan c o d = .ok launch ∧ Unbroken o (d.expandedInPlace c) ∧
      lines (argumentLines launch) = launch.arguments := by
  intro c o d
  have hplans : (plan c o d).isOk = true := by decide +kernel
  have hports : ∀ text, Port.text text ∉ [Port.number 80] := by simp
  have hunbroken : Unbroken o (d.expandedInPlace c) := {
    name := by decide +kernel
    workspaceMount := by decide +kernel
    workspaceFolder := by decide +kernel
    environment := by decide +kernel
    ports := fun text htext => absurd htext (hports text)
    runArgs := by decide +kernel
    mounts := by
      rintro declared ⟨⟩ mount hmount
      cases hmount
    capAdd := by decide +kernel
    securityOpt := by decide +kernel
    user := by decide +kernel
    image := by decide +kernel
    command := by decide +kernel }
  rcases hplan : plan c o d with e | launch
  · rw [hplan] at hplans
    cases hplans
  · exact ⟨launch, rfl, hunbroken, (lines_of_plan hplan).2.2.2 hunbroken⟩

/-- What a value has behind a line feed is read as an argument of its own. -/
theorem not_lines_eq_arguments :
    ¬ ∀ (c : Context) (o : Options) (d : Descriptor) (launch : Launch),
      plan c o d = .ok launch → lines (argumentLines launch) = launch.arguments := by
  intro h
  let c := Context.ofRoot "/home/u/app" fun _ => none
  let o := optionsAt "/home/u/app"
  let d := withMotd "hello\n--privileged"
  have hbroken : (plan c o d).toOption.any (fun launch =>
      "--privileged" ∈ lines (argumentLines launch) ∧ "--privileged" ∉ launch.arguments) = true := by
    decide +kernel
  rcases hplan : plan c o d with e | launch
  · rw [hplan] at hbroken
    cases hbroken
  · rw [hplan] at hbroken
    obtain ⟨hline, hargument⟩ : "--privileged" ∈ lines (argumentLines launch) ∧
        "--privileged" ∉ launch.arguments := by simpa [Except.toOption] using hbroken
    exact hargument (h c o d launch hplan ▸ hline)

end Launch

end Devcontainer
