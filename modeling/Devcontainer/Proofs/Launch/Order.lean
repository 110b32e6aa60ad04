import Devcontainer.Proofs.Launch.Arguments
import Devcontainer.Proofs.Launch.Outcome

/-!
# The order of environment entries

A launch keeps the environment of its container in the order of the keys, whatever the order of the
document. Descriptors that differ only in the order of their environments come to the same launch,
or to the same fault, up to the order in which missing names are listed.
-/

namespace Devcontainer

def Error.Alike (e e' : Error) : Prop :=
  e = e' ∨ ∃ names names' : List String, names.Perm names' ∧
    e = .plan (.unresolved names) ∧ e' = .plan (.unresolved names')

theorem OrderedMap.perm_map {α β : Type} {m m' : OrderedMap α} (f : α → β)
    (h : m.entries.Perm m'.entries) : (m.map f).entries.Perm (m'.map f).entries :=
  List.Perm.map _ h

theorem OrderedMap.perm_values {α : Type} {m m' : OrderedMap α}
    (h : m.entries.Perm m'.entries) : m.values.Perm m'.values :=
  h.map Prod.snd

namespace Descriptor

/-- Descriptors that differ only in the order of their environment entries. -/
inductive Reordered (d : Descriptor) : Descriptor → Prop
  | intro {containerEnv : OrderedMap String} {remoteEnv : OrderedMap (Option String)}
      (container : d.containerEnv.entries.Perm containerEnv.entries)
      (remote : d.remoteEnv.entries.Perm remoteEnv.entries) :
      Reordered d { d with containerEnv, remoteEnv }

namespace Reordered

variable {d d' : Descriptor}

theorem templates (h : d.Reordered d') : d.templates.Perm d'.templates := by
  obtain ⟨hcontainer, hremote⟩ := h
  unfold Descriptor.templates
  have hvalues := OrderedMap.perm_values hcontainer
  have hremotes := (OrderedMap.perm_values hremote).filterMap id
  exact ((((hvalues.append_left _).append hremotes).append_right _).append_right _).append_right _

theorem mapTemplates (h : d.Reordered d') (f : String → String) :
    (d.mapTemplates f).Reordered (d'.mapTemplates f) := by
  obtain ⟨hcontainer, hremote⟩ := h
  exact ⟨OrderedMap.perm_map f hcontainer, OrderedMap.perm_map (Option.map f) hremote⟩

theorem withExpandedFolder (h : d.Reordered d') (c : Context) :
    (d.withExpandedFolder c).Reordered (d'.withExpandedFolder c) := by
  obtain ⟨hcontainer, hremote⟩ := h
  exact ⟨hcontainer, hremote⟩

theorem innerContext (h : d.Reordered d') (c : Context) :
    d'.innerContext c = d.innerContext c := by
  obtain ⟨-, -⟩ := h
  rfl

/-! ## Both expansions -/

theorem missingNames (h : d.Reordered d') (c : Context) :
    (d.missingNames c).Perm (d'.missingNames c) :=
  perm_eraseDups (h.templates.flatMap_right _)

theorem missingInPlace (h : d.Reordered d') (c : Context) :
    (d.missingInPlace c).Perm (d'.missingInPlace c) := by
  rw [Descriptor.missingInPlace, Descriptor.missingInPlace, h.innerContext]
  exact (h.withExpandedFolder c).missingNames _

theorem missingInPlace_eq_nil_iff (h : d.Reordered d') (c : Context) :
    d.missingInPlace c = [] ↔ d'.missingInPlace c = [] := by
  have hperm := h.missingInPlace c
  constructor
  · intro hnil
    rw [hnil] at hperm
    exact hperm.nil_eq.symm
  · intro hnil
    rw [hnil] at hperm
    exact hperm.eq_nil

theorem expandedInPlace (h : d.Reordered d') (c : Context) :
    (d.expandedInPlace c).Reordered (d'.expandedInPlace c) := by
  rw [Descriptor.expandedInPlace, Descriptor.expandedInPlace, h.innerContext]
  exact (h.withExpandedFolder c).mapTemplates _

end Reordered

end Descriptor

namespace Launch

variable {d d' : Descriptor}

theorem ofDescriptor_of_reordered (o : Options) (h : d.Reordered d') :
    ofDescriptor o d' = ofDescriptor o d := by
  obtain ⟨hcontainer, -⟩ := h
  have henv := SortedMap.ofList_eq_of_perm d.containerEnv.distinct hcontainer
  unfold ofDescriptor
  rw [← henv]
  rfl

theorem hostRequirements_of_reordered (h : d.Reordered d') :
    d'.hostRequirements = d.hostRequirements := by
  obtain ⟨-, -⟩ := h
  rfl

theorem plan_eq_of_reordered {c : Context} (o : Options) (h : d.Reordered d')
    (hmissing : d.missingInPlace c = []) : plan c o d' = plan c o d := by
  have hmissing' : d'.missingInPlace c = [] := (h.missingInPlace_eq_nil_iff c).1 hmissing
  obtain ⟨report, hexpand⟩ := Descriptor.exists_expandInPlace hmissing
  obtain ⟨report', hexpand'⟩ := Descriptor.exists_expandInPlace hmissing'
  have hexpanded := h.expandedInPlace c
  rw [plan, plan, hexpand, hexpand']
  dsimp only
  rw [ofDescriptor_of_reordered o hexpanded, hostRequirements_of_reordered hexpanded]

theorem plan_of_missing {c : Context} (o : Options) (hmissing : d.missingInPlace c ≠ []) :
    plan c o d = .error (.plan (.unresolved (d.missingInPlace c))) := by
  rw [plan, Descriptor.expandInPlace_of_missing hmissing]

/-- The launch sets each of the values once, in the order of their keys, and sets them before its run
arguments, where nothing else is set. -/
structure Sets (l : Launch) (values : List (String × String)) : Prop where
  increasing : l.environment.entries.Pairwise (·.1 < ·.1)
  each : l.environment.entries.Perm values
  vector : ∃ rest, l.arguments = "run" :: "--rm" :: "-it" :: (flagged "--name" l.name.toList ++
    (flagged "--mount" l.emittedMount?.toList ++ "-w" :: l.workspaceFolder ::
      (flagged "-e" (l.environment.entries.map assignment) ++
        (flagged "-p" l.ports ++ (l.runArgs ++ rest)))))

theorem sets_of_plan {c : Context} {o : Options} {launch : Launch}
    (h : plan c o d = .ok launch) :
    launch.Sets (d.containerEnv.entries.map fun entry =>
      (entry.1, (Template.expand (d.innerContext c) entry.2).text)) := by
  obtain ⟨e, report, hexpand, hlaunch⟩ := ofDescriptor_of_plan h
  refine ⟨launch.environment.sorted, ?_, layout launch.trailing ++ launch.image :: launch.command,
    ?_⟩
  · rw [(eq_of_ofDescriptor hlaunch).2]
    have hperm := SortedMap.perm_entries_ofList e.containerEnv.distinct
    rwa [Descriptor.containerEnv_of_expandInPlace hexpand] at hperm ⊢
  · rw [arguments_eq]
    simp only [layout, leading, middle, List.flatMap_cons, List.flatMap_nil, Block.tokens,
      List.append_nil, List.append_assoc]

/-- Descriptors that differ only in the order of their environments have one launch, which sets their
variables in the order of the keys, or fail alike. -/
theorem plan_of_reordered (c : Context) (o : Options) (h : d.Reordered d') :
    (∃ launch, plan c o d = .ok launch ∧ plan c o d' = .ok launch ∧
      launch.Sets (d.containerEnv.entries.map fun entry =>
        (entry.1, (Template.expand (d.innerContext c) entry.2).text))) ∨
    ∃ e e', plan c o d = .error e ∧ plan c o d' = .error e' ∧ e.Alike e' := by
  by_cases hmissing : d.missingInPlace c = []
  · have hsame := plan_eq_of_reordered o h hmissing
    rcases hplan : plan c o d with e | launch
    · exact .inr ⟨e, e, rfl, hsame.trans hplan, .inl rfl⟩
    · exact .inl ⟨launch, rfl, hsame.trans hplan, sets_of_plan hplan⟩
  · have hmissing' : d'.missingInPlace c ≠ [] := mt (h.missingInPlace_eq_nil_iff c).2 hmissing
    refine .inr ⟨_, _, plan_of_missing o hmissing, plan_of_missing o hmissing', .inr ?_⟩
    exact ⟨_, _, h.missingInPlace c, rfl, rfl⟩

def withEnvironment (entries : List (String × String)) : Descriptor :=
  { Descriptor.empty with
    selector := some (.image "alpine")
    containerEnv := .ofList entries }

theorem plan_of_reordered_zed :
    let c := Context.ofRoot "/home/u/app" fun _ => none
    let zed := ("ZED", "z")
    let alpha := ("ALPHA", "$localWorkspaceFolderBasename")
    (withEnvironment [zed, alpha]).Reordered (withEnvironment [alpha, zed]) ∧
    ∃ launch, plan c (optionsAt "/home/u/app") (withEnvironment [zed, alpha]) = .ok launch ∧
      plan c (optionsAt "/home/u/app") (withEnvironment [alpha, zed]) = .ok launch ∧
      launch.Sets [("ZED", "z"), ("ALPHA", "app")] := by
  intro c zed alpha
  have hreordered : (withEnvironment [zed, alpha]).Reordered (withEnvironment [alpha, zed]) :=
    ⟨List.Perm.swap .., List.Perm.refl _⟩
  have hvalues : (withEnvironment [zed, alpha]).containerEnv.entries.map (fun entry =>
      (entry.1, (Template.expand ((withEnvironment [zed, alpha]).innerContext c) entry.2).text)) =
        [("ZED", "z"), ("ALPHA", "app")] := by decide +kernel
  have hplans : (plan c (optionsAt "/home/u/app") (withEnvironment [zed, alpha])).isOk = true := by
    decide +kernel
  refine ⟨hreordered, ?_⟩
  rcases plan_of_reordered c (optionsAt "/home/u/app") hreordered with
    ⟨launch, hplan, hplan', hsets⟩ | ⟨e, e', hplan, -, -⟩
  · exact ⟨launch, hplan, hplan', hvalues ▸ hsets⟩
  · rw [hplan] at hplans
    cases hplans

end Launch

end Devcontainer
