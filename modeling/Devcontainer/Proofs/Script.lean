import Devcontainer.Script
import Devcontainer.Proofs.Text.Split

/-!
# What a script executes

A shell executes the lines of a script that are no comments. A comment names the step whose commands
stand under it, and a line feed in the name breaks the comment off: what the name has behind it is a
line of its own. So names of steps are comments only as long as each of their line feeds has a `#`
behind it.
-/

namespace Devcontainer

open Text

theorem flatten_filterMap_eq_flatMap {α β : Type} (f : α → Option (List β)) (items : List α) :
    (items.filterMap f).flatten = items.flatMap fun item => (f item).getD [] := by
  rw [List.filterMap_eq_flatMap_toList, List.flatten_eq_flatMap, List.flatMap_assoc]
  refine List.flatMap_congr fun item _ => ?_
  cases f item <;> simp

/-! ## Executed lines -/

def isComment (line : List Char) : Bool :=
  line.head? == some '#'

def executed (text : List Char) : List (List Char) :=
  (splitOn '\n' text).filter (!isComment ·)

/-- Every line that begins inside the name is a comment. -/
def Quiet (name : List Char) : Prop :=
  ∀ line ∈ (splitOn '\n' name).tail, isComment line = true

instance (name : List Char) : Decidable (Quiet name) :=
  inferInstanceAs (Decidable (∀ line ∈ _, _))

theorem executed_append_newLine (text rest : List Char) :
    executed (text ++ '\n' :: rest) = executed text ++ executed rest := by
  rw [executed, splitOn_append_sep, List.filter_append]
  rfl

theorem executed_join (lines : List String) (rest : List Char) :
    executed ((String.join (lines.map (· ++ "\n"))).toList ++ rest) =
      lines.flatMap (fun line => executed line.toList) ++ executed rest := by
  induction lines with
  | nil => rfl
  | cons line lines ih =>
      have hline : (String.join ((line :: lines).map (· ++ "\n"))).toList ++ rest =
          line.toList ++ '\n' :: ((String.join (lines.map (· ++ "\n"))).toList ++ rest) := by
        simp [String.toList_join, String.toList_append]
      rw [hline, executed_append_newLine, ih, List.flatMap_cons, List.append_assoc]

/-- Of a comment only the lines are executed that its text begins, unless they are comments. -/
theorem executed_comment (text : List Char) :
    executed ('#' :: ' ' :: text) = (splitOn '\n' text).tail.filter (!isComment ·) := by
  have hplain : '\n' ∉ ['#', ' '] := by decide
  obtain ⟨part, hparts⟩ := splitOn_append_of_not_mem hplain text
  have hhead : executed (['#', ' '] ++ text) = (splitOn '\n' text).tail.filter (!isComment ·) := by
    rw [executed, hparts, List.filter_cons_of_neg (by simp [isComment])]
  exact hhead

theorem executed_comment_eq_nil_iff {text : List Char} :
    executed ('#' :: ' ' :: text) = [] ↔ Quiet text := by
  rw [executed_comment, List.filter_eq_nil_iff]
  simp [Quiet]

/-! ## Names in a path -/

theorem isComment_head_splitOn {text part : List Char} {parts : List (List Char)}
    (h : splitOn '\n' text = part :: parts) : isComment part = true ↔ text.head? = some '#' := by
  cases text with
  | nil =>
      obtain rfl : [] = part := (List.cons.inj h).1
      simp [isComment]
  | cons c rest =>
      rw [splitOn] at h
      split at h
      next hc =>
        obtain rfl : [] = part := (List.cons.inj h).1
        simp [isComment, hc]
      next =>
        split at h
        next => simp [isComment, ← (List.cons.inj h).1]
        next => simp [isComment, ← (List.cons.inj h).1]

theorem quiet_nil : Quiet [] := by
  rintro line hline
  cases hline

theorem quiet_cons {c : Char} {text : List Char} :
    Quiet (c :: text) ↔ (c = '\n' → text.head? = some '#') ∧ Quiet text := by
  obtain ⟨part, parts, hparts⟩ := List.exists_cons_of_ne_nil (splitOn_ne_nil '\n' text)
  have hpart := isComment_head_splitOn hparts
  rw [Quiet, Quiet, splitOn, hparts]
  by_cases hc : c = '\n'
  · rw [if_pos hc, List.tail_cons, List.tail_cons, List.forall_mem_cons, hpart]
    simp [hc]
  · rw [if_neg hc, List.tail_cons, List.tail_cons]
    simp [hc]

/-- The dot between two names begins no comment, so a path is quiet when its names are. -/
theorem quiet_path_iff {label name : List Char} :
    Quiet (label ++ '.' :: name) ↔ Quiet label ∧ Quiet name := by
  induction label with
  | nil => simp [quiet_cons, quiet_nil]
  | cons c label ih =>
      have hhead : (label ++ '.' :: name).head? = some '#' ↔ label.head? = some '#' := by
        cases label <;> simp
      rw [List.cons_append, quiet_cons, quiet_cons, ih, hhead, and_assoc]

/-! ## Lines that are added -/

/-- In `all` further lines stand between the lines of `own`, none of them exactly when `quiet`
holds. -/
structure Adds (own all : List (List Char)) (quiet : Prop) : Prop where
  sublist : own.Sublist all
  length_eq_iff : all.length = own.length ↔ quiet

namespace Adds

variable {own own' all all' : List (List Char)} {quiet quiet' : Prop}

theorem comment (text : List Char) : Adds [] (executed ('#' :: ' ' :: text)) (Quiet text) where
  sublist := List.nil_sublist _
  length_eq_iff := by
    rw [List.length_nil, List.length_eq_zero_iff, executed_comment_eq_nil_iff]

theorem of_eq (h : all = own) (hquiet : quiet) : Adds own all quiet :=
  ⟨h ▸ List.Sublist.refl _, iff_of_true (h ▸ rfl) hquiet⟩

theorem congr (h : Adds own all quiet) (hiff : quiet ↔ quiet') : Adds own all quiet' :=
  ⟨h.sublist, h.length_eq_iff.trans hiff⟩

theorem append (h : Adds own all quiet) (h' : Adds own' all' quiet') :
    Adds (own ++ own') (all ++ all') (quiet ∧ quiet') where
  sublist := h.sublist.append h'.sublist
  length_eq_iff := by
    have hle := h.sublist.length_le
    have hle' := h'.sublist.length_le
    rw [← h.length_eq_iff, ← h'.length_eq_iff, List.length_append, List.length_append]
    omega

theorem flatMap {α : Type} {items : List α} {own all : α → List (List Char)} {quiet : α → Prop}
    (h : ∀ item ∈ items, Adds (own item) (all item) (quiet item)) :
    Adds (items.flatMap own) (items.flatMap all) (∀ item ∈ items, quiet item) := by
  induction items with
  | nil => exact of_eq rfl (by simp)
  | cons item items ih =>
      rw [List.flatMap_cons, List.flatMap_cons]
      have hitems := ih fun other hother => h other (List.mem_cons_of_mem _ hother)
      exact ((h item (List.mem_cons_self ..)).append hitems).congr List.forall_mem_cons.symm

theorem eq_iff (h : Adds own all quiet) : all = own ↔ quiet := by
  rw [← h.length_eq_iff]
  exact ⟨congrArg List.length, fun hlength => (h.sublist.eq_of_length hlength.symm).symm⟩

end Adds

/-! ## Commands -/

namespace Command

mutual

def names : Command → List String
  | .shell _ => []
  | .args _ => []
  | .steps named => namesOfSteps named

def namesOfSteps : List (String × Command) → List String
  | [] => []
  | (name, command) :: rest => name :: (command.names ++ namesOfSteps rest)

end

mutual

def unnamed : Command → Command
  | .shell line => .shell line
  | .args words => .args words
  | .steps named => .steps (unnamedSteps named)

def unnamedSteps : List (String × Command) → List (String × Command)
  | [] => []
  | (_, command) :: rest => ("", command.unnamed) :: unnamedSteps rest

end

mutual

def paths (label : String) : Command → List String
  | .shell _ => []
  | .args _ => []
  | .steps named => pathsOfSteps label named

def pathsOfSteps (label : String) : List (String × Command) → List String
  | [] => []
  | (name, command) :: rest =>
    (label ++ "." ++ name) :: (command.paths (label ++ "." ++ name) ++ pathsOfSteps label rest)

end

mutual

def executions : Command → List (List Char)
  | .shell line => if line.isEmpty then [] else executed line.toList
  | .args words => if words.isEmpty then [] else executed (Shell.line words).toList
  | .steps named => executionsOfSteps named

def executionsOfSteps : List (String × Command) → List (List Char)
  | [] => []
  | (_, command) :: rest => command.executions ++ executionsOfSteps rest

end

mutual

theorem executions_unnamed (command : Command) :
    command.unnamed.executions = command.executions := by
  cases command with
  | shell line => rfl
  | args words => rfl
  | steps named =>
      rw [unnamed, executions, executions]
      exact executionsOfSteps_unnamedSteps named

theorem executionsOfSteps_unnamedSteps (named : List (String × Command)) :
    executionsOfSteps (unnamedSteps named) = executionsOfSteps named := by
  cases named with
  | nil => rfl
  | cons step rest =>
      rw [unnamedSteps, executionsOfSteps, executionsOfSteps, executions_unnamed step.2,
        executionsOfSteps_unnamedSteps rest]

end

theorem toList_path (label name : String) :
    (label ++ "." ++ name).toList = label.toList ++ '.' :: name.toList := by
  simp [String.toList_append]

mutual

theorem quiet_paths_iff {label : String} (hlabel : Quiet label.toList) (command : Command) :
    (∀ path ∈ command.paths label, Quiet path.toList) ↔
      ∀ name ∈ command.names, Quiet name.toList := by
  cases command with
  | shell line => simp [paths, names]
  | args words => simp [paths, names]
  | steps named =>
      rw [paths, names]
      exact quiet_pathsOfSteps_iff hlabel named

theorem quiet_pathsOfSteps_iff {label : String} (hlabel : Quiet label.toList)
    (named : List (String × Command)) :
    (∀ path ∈ pathsOfSteps label named, Quiet path.toList) ↔
      ∀ name ∈ namesOfSteps named, Quiet name.toList := by
  cases named with
  | nil => simp [pathsOfSteps, namesOfSteps]
  | cons step rest =>
      have hpath : Quiet (label ++ "." ++ step.1).toList ↔ Quiet step.1.toList := by
        rw [toList_path, quiet_path_iff]
        exact and_iff_right hlabel
      rw [pathsOfSteps, namesOfSteps, List.forall_mem_cons, List.forall_mem_cons,
        List.forall_mem_append, List.forall_mem_append, quiet_pathsOfSteps_iff hlabel rest, hpath]
      -- the path is the label of what is inside of the step, so its name has to be quiet first
      refine and_congr_right fun hname => ?_
      rw [quiet_paths_iff (hpath.2 hname) step.2]

end

mutual

/-- The lines of a command execute what its commands execute, and what its comments begin. -/
theorem adds_lines (label : String) (command : Command) :
    Adds command.executions ((command.lines label).flatMap fun line => executed line.toList)
      (∀ path ∈ command.paths label, Quiet path.toList) := by
  cases command with
  | shell line =>
      refine Adds.of_eq ?_ (by simp [paths])
      rw [executions, lines]
      split <;> simp
  | args words =>
      refine Adds.of_eq ?_ (by simp [paths])
      rw [executions, lines]
      split <;> simp
  | steps named =>
      rw [executions, lines, paths]
      exact adds_linesOfSteps label named

theorem adds_linesOfSteps (label : String) (named : List (String × Command)) :
    Adds (executionsOfSteps named)
      ((linesOfSteps label named).flatMap fun line => executed line.toList)
      (∀ path ∈ pathsOfSteps label named, Quiet path.toList) := by
  cases named with
  | nil => exact Adds.of_eq rfl (by simp [pathsOfSteps])
  | cons step rest =>
      have hcomment : Adds [] (executed ("# " ++ (label ++ "." ++ step.1)).toList)
          (Quiet (label ++ "." ++ step.1).toList) := by
        rw [String.toList_append]
        exact Adds.comment _
      have hsteps := hcomment.append
        ((adds_lines (label ++ "." ++ step.1) step.2).append (adds_linesOfSteps label rest))
      rw [executionsOfSteps, linesOfSteps, pathsOfSteps, List.cons_append, List.flatMap_cons,
        List.flatMap_append]
      refine hsteps.congr ?_
      rw [List.forall_mem_cons, List.forall_mem_append]

end

end Command

/-! ## Scripts -/

namespace Hooks

def unnamed (hooks : Hooks) : Hooks :=
  ⟨fun hook => (hooks.get hook).map Command.unnamed⟩

def names (hooks : Hooks) (phase : Phase) : List String :=
  phase.hooks.flatMap fun hook => ((hooks.get hook).map Command.names).getD []

def executions (hooks : Hooks) (hook : Hook) : List (List Char) :=
  ((hooks.get hook).map fun command => command.executions ++ [[]]).getD []

theorem executions_unnamed (hooks : Hooks) (hook : Hook) :
    hooks.unnamed.executions hook = hooks.executions hook := by
  show (((hooks.get hook).map Command.unnamed).map fun command =>
    command.executions ++ [[]]).getD [] = _
  rw [executions]
  cases hooks.get hook with
  | none => rfl
  | some command =>
      rw [Option.map_some, Option.map_some, Option.map_some, Command.executions_unnamed]

theorem quiet_key (hook : Hook) : Quiet hook.key.toList := by
  cases hook <;> decide

theorem adds_section (hooks : Hooks) (hook : Hook) :
    Adds (hooks.executions hook)
      (((hooks.section? hook).getD []).flatMap fun line => executed line.toList)
      (∀ name ∈ ((hooks.get hook).map Command.names).getD [], Quiet name.toList) := by
  rw [executions, section?]
  cases hooks.get hook with
  | none => exact Adds.of_eq rfl (by simp)
  | some command =>
      have hkey : executed ("# " ++ hook.key).toList = [] := by
        rw [String.toList_append]
        exact executed_comment_eq_nil_iff.2 (quiet_key hook)
      have hempty : executed "".toList = [[]] := rfl
      have hline : Adds [[]] [[]] True := Adds.of_eq rfl trivial
      have hcommand := (Command.adds_lines hook.key command).append hline
      simp only [Option.map_some, Option.getD_some, List.flatMap_append, List.flatMap_cons, hkey,
        List.nil_append, List.flatMap_nil, List.append_nil, hempty]
      refine hcommand.congr ?_
      rw [and_true, Command.quiet_paths_iff (quiet_key hook)]

/-- The lines of a script that are there whatever its hooks are. -/
def frame (lines : List (List Char)) : List (List Char) :=
  "set -e".toList :: [] :: (lines ++ [[]])

theorem executed_script (hooks : Hooks) (phase : Phase) :
    executed (hooks.script phase).toList = frame (phase.hooks.flatMap fun hook =>
      ((hooks.section? hook).getD []).flatMap fun line => executed line.toList) := by
  have hhead : scriptHead = String.join (["#!/bin/sh", "set -e", ""].map (· ++ "\n")) := by decide
  have hrest := executed_join (phase.hooks.filterMap hooks.section?).flatten []
  rw [List.append_nil, flatten_filterMap_eq_flatMap, List.flatMap_assoc] at hrest
  rw [script, String.toList_append, hhead, executed_join, flatten_filterMap_eq_flatMap, hrest]
  rfl

theorem adds_script (hooks : Hooks) (phase : Phase) :
    Adds (frame (phase.hooks.flatMap hooks.executions)) (executed (hooks.script phase).toList)
      (∀ name ∈ hooks.names phase, Quiet name.toList) := by
  have hsections := Adds.flatMap fun hook (_ : hook ∈ phase.hooks) => hooks.adds_section hook
  have hhead : Adds ["set -e".toList, []] ["set -e".toList, []] True := Adds.of_eq rfl trivial
  have hend : Adds [[]] [[]] True := Adds.of_eq rfl trivial
  rw [executed_script]
  refine (hhead.append (hsections.append hend)).congr ?_
  simp only [true_and, and_true, names, List.mem_flatMap]
  exact ⟨fun h name ⟨hook, hhook, hname⟩ => h hook hhook name hname,
    fun h hook hhook name hname => h name ⟨hook, hhook, hname⟩⟩

/-- Hooks that differ in the names of their steps only, where the one names are quiet: every line
that the one script executes is executed by the other one in the same order, and the other one
executes no further line exactly when its names are quiet, too. -/
theorem executed_script_eq_iff {a b : Hooks} (hsame : a.unnamed = b.unnamed) {phase : Phase}
    (hquiet : ∀ name ∈ b.names phase, Quiet name.toList) :
    (executed (b.script phase).toList).Sublist (executed (a.script phase).toList) ∧
      (executed (a.script phase).toList = executed (b.script phase).toList ↔
        ∀ name ∈ a.names phase, Quiet name.toList) := by
  have hexecutions : a.executions = b.executions := by
    funext hook
    rw [← a.executions_unnamed, hsame, b.executions_unnamed]
  have ha := a.adds_script phase
  have hb : executed (b.script phase).toList = frame (phase.hooks.flatMap b.executions) :=
    (b.adds_script phase).eq_iff.2 hquiet
  rw [hexecutions] at ha
  rw [hb]
  exact ⟨ha.sublist, ha.eq_iff⟩

def buildStep (name : String) : Hooks :=
  Hooks.empty.set .postCreate (some (.steps [(name, .steps [("all", .shell "make\nmake test")])]))

theorem executed_script_eq_iff_buildStep :
    (buildStep "build\n#\n# step").unnamed = (buildStep "build").unnamed ∧
      (∀ name ∈ (buildStep "build").names .create, Quiet name.toList) ∧
      (∀ name ∈ (buildStep "build\n#\n# step").names .create, Quiet name.toList) ∧
      executed ((buildStep "build\n#\n# step").script .create).toList =
        executed ((buildStep "build").script .create).toList := by
  have hsame : (buildStep "build\n#\n# step").unnamed = (buildStep "build").unnamed := by decide
  have hquiet : ∀ name ∈ (buildStep "build").names .create, Quiet name.toList := by decide
  have hquiet' : ∀ name ∈ (buildStep "build\n#\n# step").names .create, Quiet name.toList := by
    decide
  exact ⟨hsame, hquiet, hquiet', (executed_script_eq_iff hsame hquiet).2.2 hquiet'⟩

/-- What a name has behind a line feed is a command. -/
theorem not_executed_script_eq :
    ¬ ∀ (a b : Hooks) (phase : Phase), a.unnamed = b.unnamed →
      executed (a.script phase).toList = executed (b.script phase).toList := by
  intro h
  have hscripts := h (buildStep "build\nreboot") (buildStep "build") .create (by decide)
  exact absurd hscripts (by decide +kernel)

end Hooks

end Devcontainer
