import Devcontainer.Descriptor.Expand
import Devcontainer.Proofs.Template.Report
import Devcontainer.Proofs.Traversal

/-!
# What an expansion covers

No template is expanded otherwise for what was reported before it, so the templates of an expanded
descriptor are the expansions of its templates, one for one, and an expansion that succeeds misses no
variable in any of them. What is left of a descriptor without its templates stays as it is.
-/

namespace Devcontainer

theorem OrderedMap.values_map {α β : Type} (f : α → β) (m : OrderedMap α) :
    (m.map f).values = m.values.map f := by
  simp [values, List.map_map, Function.comp_def]

theorem OrderedMap.map_map {α β γ : Type} (f : α → β) (g : β → γ) (m : OrderedMap α) :
    (m.map f).map g = m.map (g ∘ f) := by
  ext1
  simp [List.map_map, Function.comp_def]

mutual

theorem Command.strings_map (f : String → String) (command : Command) :
    (command.map f).strings = command.strings.map f := by
  cases command with
  | shell line => rfl
  | args words => rfl
  | steps named =>
      rw [map, strings, strings]
      exact stringsOfSteps_mapSteps f named

theorem Command.stringsOfSteps_mapSteps (f : String → String) (named : List (String × Command)) :
    stringsOfSteps (mapSteps f named) = (stringsOfSteps named).map f := by
  cases named with
  | nil => rfl
  | cons step rest =>
      rw [mapSteps, stringsOfSteps, stringsOfSteps, Command.strings_map f step.2,
        Command.stringsOfSteps_mapSteps f rest, List.map_append]

end

mutual

theorem Command.map_map (f g : String → String) (command : Command) :
    (command.map f).map g = command.map (g ∘ f) := by
  cases command with
  | shell line => rfl
  | args words =>
      rw [map, map, map, List.map_map]
  | steps named =>
      rw [map, map, map, Command.mapSteps_mapSteps f g named]

theorem Command.mapSteps_mapSteps (f g : String → String) (named : List (String × Command)) :
    mapSteps g (mapSteps f named) = mapSteps (g ∘ f) named := by
  cases named with
  | nil => rfl
  | cons step rest =>
      rw [mapSteps, mapSteps, mapSteps, Command.map_map f g step.2,
        Command.mapSteps_mapSteps f g rest]

end

theorem Hooks.map_map (f g : String → String) (hooks : Hooks) :
    (hooks.map f).map g = hooks.map (g ∘ f) := by
  ext1 hook
  show ((hooks.get hook).map (Command.map f)).map (Command.map g) = _
  rw [Option.map_map]
  exact Option.map_congr fun command _ => command.map_map f g

theorem Mount.Spec.map_map (f g : String → String) (spec : Mount.Spec) :
    (spec.map f).map g = spec.map (g ∘ f) := by
  cases spec with
  | text s => rfl
  | fields given =>
      obtain ⟨kind, source, target, readOnly⟩ := given
      cases source <;> cases target <;> rfl

theorem Hooks.strings_map (f : String → String) (hooks : Hooks) :
    (hooks.map f).strings = hooks.strings.map f := by
  rw [strings, strings, List.map_flatMap]
  apply List.flatMap_congr
  intro hook _
  show (((hooks.get hook).map (Command.map f)).map Command.strings).getD [] = _
  cases hooks.get hook with
  | none => rfl
  | some command => exact command.strings_map f

theorem Mount.Spec.strings_map (f : String → String) (spec : Mount.Spec) :
    (spec.map f).strings = spec.strings.map f := by
  cases spec with
  | text s => rfl
  | fields given =>
      obtain ⟨kind, source, target, readOnly⟩ := given
      cases source <;> cases target <;> rfl

/-! ## Functions that agree on the strings -/

mutual

theorem Command.map_congr {f g : String → String} (command : Command)
    (h : ∀ s ∈ command.strings, f s = g s) : command.map f = command.map g := by
  cases command with
  | shell line =>
      rw [map, map, h line (by simp [strings])]
  | args words =>
      rw [map, map, List.map_congr_left fun s hs => h s (by simpa [strings] using hs)]
  | steps named =>
      rw [map, map, Command.mapSteps_congr named fun s hs => h s (by simpa [strings] using hs)]

theorem Command.mapSteps_congr {f g : String → String} (named : List (String × Command))
    (h : ∀ s ∈ stringsOfSteps named, f s = g s) : mapSteps f named = mapSteps g named := by
  cases named with
  | nil => rfl
  | cons step rest =>
      rw [stringsOfSteps] at h
      rw [mapSteps, mapSteps,
        Command.map_congr step.2 fun s hs => h s (List.mem_append_left _ hs),
        Command.mapSteps_congr rest fun s hs => h s (List.mem_append_right _ hs)]

end

theorem Hooks.map_congr {f g : String → String} (hooks : Hooks)
    (h : ∀ s ∈ hooks.strings, f s = g s) : hooks.map f = hooks.map g := by
  ext1 hook
  refine Option.map_congr fun command hcommand => command.map_congr fun s hs => h s ?_
  refine List.mem_flatMap.2 ⟨hook, hook.mem_all, ?_⟩
  rw [Option.mem_def.1 hcommand]
  exact hs

theorem Mount.Spec.map_congr {f g : String → String} (spec : Mount.Spec)
    (h : ∀ s ∈ spec.strings, f s = g s) : spec.map f = spec.map g := by
  cases spec with
  | text s => exact congrArg text (h s (List.mem_singleton_self s))
  | fields given =>
      have hsource : given.source.map f = given.source.map g := Option.map_congr fun s hs =>
        h s (List.mem_append_left _ (Option.mem_toList.2 hs))
      have htarget : given.target.map f = given.target.map g := Option.map_congr fun s hs =>
        h s (List.mem_append_right _ (Option.mem_toList.2 hs))
      rw [map, map, Fields.map, Fields.map, hsource, htarget]

theorem OrderedMap.map_congr {α β : Type} {f g : α → β} (m : OrderedMap α)
    (h : ∀ a ∈ m.values, f a = g a) : m.map f = m.map g := by
  ext1
  refine List.map_congr_left fun entry hentry => ?_
  exact congrArg (Prod.mk entry.1) (h entry.2 (List.mem_map_of_mem hentry))

/-- What a template comes to and reports when no other has been expanded before it. -/
def Template.alone (c : Context) (template : String) : String × Report :=
  (substitute c template).run Report.empty

theorem Template.substitute_eq_visit (c : Context) : substitute c =
    visit (fun template => (expand c template).text)
      (fun r template => r.add (expand c template)) := rfl

namespace Descriptor

theorem templates_mapTemplates (f : String → String) (d : Descriptor) :
    (d.mapTemplates f).templates = d.templates.map f := by
  have hoption : ∀ o : Option String, (o.map f).toList = o.toList.map f := by
    intro o
    cases o <;> rfl
  have hremote : (d.remoteEnv.values.map (Option.map f)).filterMap id =
      (d.remoteEnv.values.filterMap id).map f := by
    rw [List.filterMap_map, List.map_filterMap]
    rfl
  have hmounts : (d.mounts.map (·.map f)).flatMap Mount.Spec.strings =
      (d.mounts.flatMap Mount.Spec.strings).map f := by
    rw [List.flatMap_map, List.map_flatMap]
    exact List.flatMap_congr fun spec _ => spec.strings_map f
  have hrun : (d.runArgs.map (·.map f)).getD [] = (d.runArgs.getD []).map f := by
    cases d.runArgs <;> rfl
  unfold templates mapTemplates
  simp only [List.map_append, hoption, hremote, hmounts, hrun, OrderedMap.values_map,
    Hooks.strings_map]

theorem mapTemplates_mapTemplates (f g : String → String) (d : Descriptor) :
    (d.mapTemplates f).mapTemplates g = d.mapTemplates (g ∘ f) := by
  have hmounts : (d.mounts.map (·.map f)).map (·.map g) = d.mounts.map (·.map (g ∘ f)) := by
    rw [List.map_map]
    exact List.map_congr_left fun spec _ => spec.map_map f g
  have hremote : (d.remoteEnv.map (Option.map f)).map (Option.map g) =
      d.remoteEnv.map (Option.map (g ∘ f)) := by
    rw [OrderedMap.map_map, Option.map_comp_map]
  have hrun : (d.runArgs.map (·.map f)).map (·.map g) = d.runArgs.map (·.map (g ∘ f)) := by
    cases d.runArgs <;> simp
  simp only [mapTemplates, Option.map_map, OrderedMap.map_map, Hooks.map_map, hmounts, hremote, hrun]

theorem mapTemplates_congr {f g : String → String} (d : Descriptor)
    (h : ∀ template ∈ d.templates, f template = g template) :
    d.mapTemplates f = d.mapTemplates g := by
  simp only [templates, List.mem_append, or_imp, forall_and] at h
  obtain ⟨⟨⟨⟨⟨⟨hfolder, hmount⟩, hcontainer⟩, hremote⟩, hmounts⟩, hhooks⟩, hrun⟩ := h
  have hfolder' : d.workspaceFolder.map f = d.workspaceFolder.map g :=
    Option.map_congr fun s hs => hfolder s (Option.mem_toList.2 hs)
  have hmount' : d.workspaceMount.map f = d.workspaceMount.map g :=
    Option.map_congr fun s hs => hmount s (Option.mem_toList.2 hs)
  have hremote' : d.remoteEnv.map (Option.map f) = d.remoteEnv.map (Option.map g) := by
    refine d.remoteEnv.map_congr fun value hvalue => Option.map_congr fun s hs => ?_
    exact hremote s (List.mem_filterMap.2 ⟨value, hvalue, hs⟩)
  have hmounts' : d.mounts.map (·.map f) = d.mounts.map (·.map g) := by
    refine List.map_congr_left fun spec hspec => spec.map_congr fun s hs => ?_
    exact hmounts s (List.mem_flatMap.2 ⟨spec, hspec, hs⟩)
  have hrun' : d.runArgs.map (·.map f) = d.runArgs.map (·.map g) := by
    refine Option.map_congr fun words hwords => List.map_congr_left fun s hs => hrun s ?_
    rw [Option.mem_def.1 hwords]
    exact hs
  simp only [mapTemplates, hfolder', hmount', d.containerEnv.map_congr hcontainer, hremote', hmounts',
    d.hooks.map_congr hhooks, hrun']

/-- What is left of a descriptor when its templates are taken out: which parts it has, all keys, names
and kinds in their order, and every part that is no template. -/
def skeleton (d : Descriptor) : Descriptor :=
  d.mapTemplates fun _ => ""

theorem skeleton_mapTemplates (f : String → String) (d : Descriptor) :
    (d.mapTemplates f).skeleton = d.skeleton :=
  mapTemplates_mapTemplates f _ d

/-- A traversal with an action whose texts do not depend on the state comes to the mapped descriptor,
and the state moves on over the templates. -/
theorem visits_mapTemplatesM {σ : Type} (text : String → String) (step : σ → String → σ)
    (d : Descriptor) :
    Visits step (d.mapTemplatesM (visit text step)) (d.mapTemplates text) d.templates := by
  have hremote : Visits step (d.remoteEnv.mapM (Option.mapM (visit text step)))
      (d.remoteEnv.map (Option.map text)) (d.remoteEnv.values.filterMap id) := by
    rw [List.filterMap_eq_flatMap_toList]
    exact Visits.mapM_orderedMap fun o _ => Visits.mapM_text text o
  have hcontainer : Visits step (d.containerEnv.mapM (visit text step)) (d.containerEnv.map text)
      d.containerEnv.values := by
    have h : Visits step (d.containerEnv.mapM (visit text step)) (d.containerEnv.map text)
        (d.containerEnv.values.flatMap fun s => [s]) :=
      Visits.mapM_orderedMap fun s _ => Visits.single text s
    rwa [List.flatMap_singleton'] at h
  have hmounts : Visits step (d.mounts.mapM (Mount.Spec.mapM (visit text step)))
      (d.mounts.map (·.map text)) (d.mounts.flatMap Mount.Spec.strings) :=
    Visits.mapM_list fun spec _ => Visits.mapM_mount text spec
  have hrun : Visits step (d.runArgs.mapM (List.mapM (visit text step)))
      (d.runArgs.map (·.map text)) (d.runArgs.getD []) := by
    have h : Visits step (d.runArgs.mapM (List.mapM (visit text step)))
        (d.runArgs.map (·.map text)) ((d.runArgs.map id).getD []) :=
      Visits.mapM_option fun words _ => Visits.mapM_texts text words
    rwa [Option.map_id_fun, id_eq] at h
  unfold mapTemplatesM templates
  simp only [List.append_assoc]
  exact (Visits.mapM_text text d.workspaceFolder).bind <|
    (Visits.mapM_text text d.workspaceMount).bind <| hcontainer.bind <| hremote.bind <|
    hmounts.bind <| (Visits.mapM_hooks text d.hooks).bind <| hrun.bind_pure _

theorem expand_eq (c : Context) (d : Descriptor) : d.expand c =
    if (Report.ofTemplates c d.templates).missing = [] then
      .ok (d.mapTemplates fun template => (Template.expand c template).text,
        Report.ofTemplates c d.templates)
    else .error (.unresolved (Report.ofTemplates c d.templates).missing) := by
  have hrun : (d.mapTemplatesM (Template.substitute c)).run Report.empty =
      (d.mapTemplates fun template => (Template.expand c template).text,
        Report.ofTemplates c d.templates) := by
    rw [Template.substitute_eq_visit]
    exact visits_mapTemplatesM _ _ d Report.empty
  simp only [expand, hrun, List.isEmpty_iff]

def missingNames (c : Context) (d : Descriptor) : List String :=
  (d.templates.flatMap fun template => (Template.alone c template).2.missing).eraseDups

theorem missing_report (c : Context) (d : Descriptor) :
    (Report.ofTemplates c d.templates).missing = d.missingNames c :=
  Report.missing_ofTemplates c d.templates

theorem eq_of_expand {c : Context} {d e : Descriptor} {report : Report}
    (h : d.expand c = .ok (e, report)) :
    e = (d.mapTemplates fun template => (Template.expand c template).text) ∧
      ∀ template ∈ d.templates, (Template.expand c template).missing = [] := by
  rw [expand_eq] at h
  split at h
  next hmissing =>
    cases h
    refine ⟨rfl, fun template htemplate => ?_⟩
    rw [List.eq_nil_iff_forall_not_mem]
    intro name hname
    have hmem := Report.mem_missing_ofTemplates.2 ⟨template, htemplate, hname⟩
    rw [hmissing] at hmem
    exact List.not_mem_nil hmem
  next => cases h

/-- The templates are visited once each and in order. An expansion fails with the names that are
missing in them, and otherwise puts in for each of them what it comes to alone, and changes nothing
else. -/
theorem expand_pointwise (c : Context) (d : Descriptor) :
    (∀ text : String → String,
      (d.mapTemplatesM (visit text fun noted template => noted ++ [template])).run [] =
          (d.mapTemplates text, d.templates) ∧
        (d.mapTemplates text).templates = d.templates.map text ∧
        (d.mapTemplates text).skeleton = d.skeleton) ∧
    d.expand c =
      if d.missingNames c = [] then
        .ok (d.mapTemplates fun template => (Template.alone c template).1,
          Report.ofTemplates c d.templates)
      else .error (.unresolved (d.missingNames c)) := by
  constructor
  · intro text
    refine ⟨?_, d.templates_mapTemplates text, d.skeleton_mapTemplates text⟩
    rw [visits_mapTemplatesM, List.foldl_append_eq_append, ← List.flatMap_def,
      List.flatMap_singleton', List.nil_append]
  · rw [expand_eq, missing_report]
    rfl

end Descriptor

end Devcontainer
