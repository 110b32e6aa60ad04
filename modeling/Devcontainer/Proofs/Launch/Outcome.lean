import Devcontainer.Proofs.Amount
import Devcontainer.Proofs.Launch.Folder
import Devcontainer.Proofs.Mount.Canonical

/-!
# What planning comes to

A plan fails with the first of its faults: a variable of the host without a value, a bad number of
processors, a selector that is no image, a declared mount without a meaning, a port that maps
nothing. Without a fault there is a launch. The checks of a finished launch add only the ports to
this, since the text of every mount says its kind and its target.

A number of processors is bad when it is not a positive whole number, and also when it is one that is
spelt out and does not fit into 64 bits.
-/

namespace Devcontainer

variable {α β ε : Type}

/-- The result is the fault, if there is one, and a value otherwise. -/
def Settles (fault? : Option ε) (result : Except ε α) : Prop :=
  match fault? with
  | some fault => result = .error fault
  | none => ∃ a, result = .ok a

namespace Settles

theorem fail (fault : ε) : Settles (some fault) (.error fault : Except ε α) := rfl

theorem ok (a : α) : Settles none (.ok a : Except ε α) := ⟨a, rfl⟩

theorem cases {fault? : Option ε} {result : Except ε α} (h : Settles fault? result) :
    (∃ fault, fault? = some fault ∧ result = .error fault) ∨
      (fault? = none ∧ ∃ a, result = .ok a) := by
  cases fault? with
  | some fault => exact Or.inl ⟨fault, rfl, h⟩
  | none => exact Or.inr ⟨rfl, h⟩

theorem unique {first? second? : Option ε} {result : Except ε α} (hfirst : Settles first? result)
    (hsecond : Settles second? result) : first? = second? := by
  rcases hfirst.cases with ⟨fault, rfl, rfl⟩ | ⟨rfl, a, rfl⟩ <;>
    rcases hsecond.cases with ⟨fault', rfl, hfault⟩ | ⟨rfl, b, hb⟩
  · rw [Except.error.inj hfault]
  · cases hb
  · cases hfault
  · rfl

theorem map {fault? : Option ε} {result : Except ε α} (h : Settles fault? result) (f : α → β) :
    Settles fault? (result.map f) := by
  rcases h.cases with ⟨fault, rfl, rfl⟩ | ⟨rfl, a, rfl⟩
  · exact fail _
  · exact ok _

theorem bind {first? second? : Option ε} {result : Except ε α} {next : α → Except ε β}
    (h : Settles first? result) (hnext : ∀ a, result = .ok a → Settles second? (next a)) :
    Settles (first?.or second?) (result.bind next) := by
  rcases h.cases with ⟨fault, rfl, rfl⟩ | ⟨rfl, a, rfl⟩
  · exact fail _
  · exact hnext a rfl

theorem mapError {δ : Type} {fault? : Option ε} {result : Except ε α} (h : Settles fault? result)
    (f : ε → δ) : Settles (fault?.map f) (result.mapError f) := by
  rcases h.cases with ⟨fault, rfl, rfl⟩ | ⟨rfl, a, rfl⟩
  · exact fail _
  · exact ok a

end Settles

namespace Descriptor

def missingInPlace (c : Context) (d : Descriptor) : List String :=
  (d.withExpandedFolder c).missingNames (d.innerContext c)

/-- The descriptor with each template replaced by what it comes to alone, where the folder has been
expanded once before. -/
def expandedInPlace (c : Context) (d : Descriptor) : Descriptor :=
  (d.withExpandedFolder c).mapTemplates fun template =>
    (Template.alone (d.innerContext c) template).1

theorem map_fst_expandInPlace (c : Context) (d : Descriptor) :
    (d.expandInPlace c).map Prod.fst =
      ((d.withExpandedFolder c).expand (d.innerContext c)).map Prod.fst := by
  rw [expandInPlace_eq_map]
  cases (d.withExpandedFolder c).expand (d.innerContext c) <;> rfl

theorem expandInPlace_eq (c : Context) (d : Descriptor) :
    (d.expandInPlace c).map Prod.fst =
      if d.missingInPlace c = [] then .ok (d.expandedInPlace c)
      else .error (.unresolved (d.missingInPlace c)) := by
  rw [map_fst_expandInPlace, expand_eq, missing_report, ← missingInPlace]
  split <;> rfl

theorem expandInPlace_of_missing {c : Context} {d : Descriptor} (h : d.missingInPlace c ≠ []) :
    d.expandInPlace c = .error (.unresolved (d.missingInPlace c)) := by
  have hmap := expandInPlace_eq c d
  rw [if_neg h] at hmap
  cases hexpand : d.expandInPlace c with
  | error e =>
      rw [hexpand] at hmap
      exact congrArg Except.error (Except.error.inj hmap)
  | ok p =>
      rw [hexpand] at hmap
      cases hmap

theorem exists_expandInPlace {c : Context} {d : Descriptor} (h : d.missingInPlace c = []) :
    ∃ report, d.expandInPlace c = .ok (d.expandedInPlace c, report) := by
  have hmap := expandInPlace_eq c d
  rw [if_pos h] at hmap
  cases hexpand : d.expandInPlace c with
  | error e =>
      rw [hexpand] at hmap
      cases hmap
  | ok p =>
      rw [hexpand] at hmap
      obtain ⟨expanded, report⟩ := p
      exact ⟨report, congrArg (fun e => Except.ok (e, report)) (Except.ok.inj hmap)⟩

theorem eq_of_expandInPlace {c : Context} {d e : Descriptor} {report : Report}
    (h : d.expandInPlace c = .ok (e, report)) : e = d.expandedInPlace c := by
  have hmap := expandInPlace_eq c d
  rw [h] at hmap
  split at hmap
  next => exact Except.ok.inj hmap
  next => cases hmap

end Descriptor

namespace Launch

/-! ## The faults, each by itself -/

def selectorFault? : Option Selector → Option PlanError
  | none | some (.image "") => some .noImage
  | some (.image _) => none
  | some (.dockerfile _) => some (.unsupportedSelector .dockerfile)
  | some (.compose _) => some (.unsupportedSelector .compose)

def mountFault? (specs : List Mount.Spec) : Option PlanError :=
  specs.findSome? fun spec =>
    match spec.toMount with
    | .ok _ => none
    | .error cause => some (.invalidMount spec.describe cause)

def portFault? (ports : List String) : Option PlanError :=
  (ports.find? (!Port.isMapping ·)).map .invalidPort

theorem settles_imageOf (d : Descriptor) : Settles (selectorFault? d.selector) (imageOf d) := by
  unfold imageOf
  cases d.selector with
  | none => exact .fail _
  | some selector =>
      cases selector with
      | image reference =>
          by_cases h : reference = ""
          · rw [h]
            exact .fail _
          · have hfault : selectorFault? (some (.image reference)) = none := by
              unfold selectorFault?
              split <;> simp_all
            rw [hfault]
            exact ⟨reference, if_neg (by simpa using h)⟩
      | dockerfile path => exact .fail _
      | compose files => exact .fail _

theorem settles_declaredMounts (specs : List Mount.Spec) :
    Settles (mountFault? specs) (declaredMounts specs) := by
  induction specs with
  | nil => exact .ok _
  | cons spec specs ih =>
      unfold mountFault?
      rw [List.findSome?_cons, declaredMounts, Mount.Spec.resolve]
      cases spec.toMount with
      | error cause => exact .fail _
      | ok mount => exact ih.map _

theorem settles_checkPorts (ports : List String) :
    Settles (portFault? ports) (checkAll Port.check ports) := by
  induction ports with
  | nil => exact .ok _
  | cons port ports ih =>
      unfold portFault?
      rw [List.find?_cons, checkAll, Port.check]
      cases Port.isMapping port with
      | false => exact .fail _
      | true => exact ih

/-! ## The launch and its check -/

theorem hasOption_of_mem_options {m : Mount} {key value : String}
    (hoption : key ++ value ∈ m.options) (hne : key.toList ≠ []) (hcomma : ',' ∉ key.toList)
    (hblank : key.toList.any Text.isBlank = false) : hasOption key m.canonical = true := by
  have hplain : ∀ c ∈ key.toList, Text.isBlank c = false := by simpa using hblank
  obtain ⟨part, hpart, hprefix⟩ := Mount.exists_part_of_mem_options hoption hne hcomma hplain
  exact List.any_eq_true.2 ⟨part, hpart, List.isPrefixOf_iff_prefix.2 hprefix⟩

theorem checkMount_canonical (m : Mount) : checkMount m.canonical = .ok () := by
  have hkind : hasOption "type=" m.canonical = true :=
    hasOption_of_mem_options m.kind_mem_options (by decide) (by decide) (by decide)
  have htarget : hasOption "target=" m.canonical = true :=
    hasOption_of_mem_options m.target_mem_options (by decide) (by decide) (by decide)
  rw [checkMount, hkind, htarget]
  rfl

theorem checkMounts_canonical (mounts : List Mount) :
    checkAll checkMount (mounts.map Mount.canonical) = .ok () := by
  induction mounts with
  | nil => rfl
  | cons m mounts ih => rw [List.map_cons, checkAll, checkMount_canonical, ih]

theorem selector_of_imageOf {d : Descriptor} {image : String} (h : imageOf d = .ok image) :
    d.selector = some (.image image) ∧ image ≠ "" := by
  unfold imageOf at h
  split at h
  next reference hselector =>
    split at h
    next => cases h
    next hne =>
      cases h
      exact ⟨hselector, by simpa using hne⟩
  next => cases h
  next => cases h

theorem exists_of_ofDescriptor {o : Options} {d : Descriptor} {launch : Launch}
    (h : ofDescriptor o d = .ok launch) : launch.image ≠ "" ∧
      (∃ mounts : List Mount, launch.mounts = mounts.map Mount.canonical) ∧
      launch.ports = portsOf o d := by
  unfold ofDescriptor at h
  split at h
  next => cases h
  next image himage =>
    split at h
    next => cases h
    next declared _ =>
      cases h
      exact ⟨(selector_of_imageOf himage).2, ⟨Mount.inject declared o.mounts, rfl⟩, rfl⟩

/-- Of a launch that was made only the ports can be at fault. -/
theorem check_of_ofDescriptor {o : Options} {d : Descriptor} {launch : Launch}
    (h : ofDescriptor o d = .ok launch) :
    launch.check = checkAll Port.check (portsOf o d) := by
  obtain ⟨himage, ⟨mounts, hmounts⟩, hports⟩ := exists_of_ofDescriptor h
  rw [check, if_neg (by simpa using himage), hmounts, checkMounts_canonical, hports]

theorem settles_ofDescriptor (o : Options) (d : Descriptor) :
    Settles ((selectorFault? d.selector).or (mountFault? d.mounts)) (ofDescriptor o d) := by
  unfold ofDescriptor
  rcases (settles_imageOf d).cases with ⟨fault, hfault, himage⟩ | ⟨hfault, image, himage⟩
  · rw [hfault, himage]
    exact .fail _
  · rw [hfault, himage, Option.none_or]
    rcases (settles_declaredMounts d.mounts).cases with
      ⟨fault, hfault, hmounts⟩ | ⟨hfault, declared, hmounts⟩
    · rw [hfault, hmounts]
      exact .fail _
    · rw [hfault, hmounts]
      exact .ok _

def checked (o : Options) (d : Descriptor) : Except PlanError Launch :=
  (ofDescriptor o d).bind fun launch => launch.check.map fun _ => launch

theorem settles_checked (o : Options) (d : Descriptor) :
    Settles ((selectorFault? d.selector).or <| (mountFault? d.mounts).or <|
      portFault? (portsOf o d)) (checked o d) := by
  rw [← Option.or_assoc]
  refine (settles_ofDescriptor o d).bind fun launch hlaunch => ?_
  rw [check_of_ofDescriptor hlaunch]
  exact (settles_checkPorts _).map _

/-! ## Planning -/

def cpus? (d : Descriptor) : Option Amount :=
  d.hostRequirements.bind HostRequirements.cpus

section

variable (accepts : Amount → Prop) [DecidablePred accepts]

def cpusFault? (d : Descriptor) : Option LoadError :=
  ((cpus? d).filter (¬ accepts ·)).map .badCpus

/-- The reason for which no launch can be planned, the first that applies. Names are missing, and
mounts are at fault, in what the templates come to; all else is checked as it was given. -/
def fault? (c : Context) (o : Options) (d : Descriptor) : Option Error :=
  (if d.missingInPlace c = [] then none
    else some (.plan (.unresolved (d.missingInPlace c)))).or <|
  ((cpusFault? accepts d).map .load).or <|
  ((selectorFault? d.selector).or <| (mountFault? (d.expandedInPlace c).mounts).or <|
    portFault? (portsOf o d)).map .plan

end

theorem cpusFault?_accepted (d : Descriptor) : cpusFault? Amount.Accepted d =
    (d.hostRequirements.bind HostRequirements.badCpus?).map .badCpus := by
  unfold cpusFault? cpus?
  cases d.hostRequirements with
  | none => rfl
  | some host =>
      have hfilter : host.badCpus? = host.cpus.filter (¬ Amount.Accepted ·) := by
        rw [HostRequirements.badCpus?]
        congr 1
        funext amount
        rw [Bool.eq_iff_iff, decide_eq_true_iff, ← Amount.isSome_positive?_iff,
          Option.isNone_iff_eq_none, Option.not_isSome_iff_eq_none]
      rw [Option.bind_some, Option.bind_some, hfilter]

theorem plan_of_expandInPlace {c : Context} {o : Options} {d e : Descriptor} {report : Report}
    (hexpand : d.expandInPlace c = .ok (e, report))
    (hcpus : e.hostRequirements.bind HostRequirements.badCpus? = none) :
    plan c o d = (checked o e).mapError .plan := by
  rw [plan, hexpand]
  dsimp only
  rw [hcpus, checked]
  cases ofDescriptor o e with
  | error fault => rfl
  | ok launch =>
      dsimp only [Except.bind]
      cases launch.check <;> rfl

theorem settles_plan (c : Context) (o : Options) (d : Descriptor) :
    Settles (fault? Amount.Accepted c o d) (plan c o d) := by
  unfold fault?
  by_cases hmissing : d.missingInPlace c = []
  · obtain ⟨report, hexpand⟩ := Descriptor.exists_expandInPlace hmissing
    rw [if_pos hmissing, Option.none_or, cpusFault?_accepted]
    cases hcpus : d.hostRequirements.bind HostRequirements.badCpus? with
    | some amount =>
        have hhost : (d.expandedInPlace c).hostRequirements.bind HostRequirements.badCpus? =
            some amount := hcpus
        rw [plan, hexpand]
        dsimp only
        rw [hhost]
        exact .fail _
    | none =>
        rw [plan_of_expandInPlace hexpand hcpus]
        exact (settles_checked o (d.expandedInPlace c)).mapError Error.plan
  · rw [if_neg hmissing, plan, Descriptor.expandInPlace_of_missing hmissing]
    exact .fail _

section

variable {c : Context} {o : Options} {d : Descriptor}

/-- Nothing that is checked after the number of processors makes the same error. -/
theorem fault?_ne_of_overlong {amount : Amount} (hmissing : d.missingInPlace c = [])
    (hcpus : cpus? d = some amount) (hlong : amount.Overlong) :
    fault? Amount.Accepted c o d ≠ fault? Amount.IsPositiveInteger c o d := by
  have haccepted : cpusFault? Amount.Accepted d = some (.badCpus amount) := by
    simp [cpusFault?, hcpus, Amount.Accepted, hlong]
  have hpositive : cpusFault? Amount.IsPositiveInteger d = none := by
    simp [cpusFault?, hcpus, hlong.isPositiveInteger]
  unfold fault?
  rw [haccepted, hpositive, if_pos hmissing, Option.none_or, Option.none_or, Option.map_some,
    Option.some_or, Option.map_none, Option.none_or]
  intro hfault
  obtain ⟨planError, -, hplan⟩ := Option.map_eq_some_iff.1 hfault.symm
  cases hplan

theorem cpusFault?_of_not_overlong (h : ∀ amount ∈ cpus? d, ¬ amount.Overlong) :
    cpusFault? Amount.Accepted d = cpusFault? Amount.IsPositiveInteger d := by
  unfold cpusFault?
  cases hcpus : cpus? d with
  | none => rfl
  | some amount => simp [Option.filter_some, Amount.Accepted, h amount hcpus]

theorem settles_isPositiveInteger_iff :
    Settles (fault? Amount.IsPositiveInteger c o d) (plan c o d) ↔
      (d.missingInPlace c = [] → ∀ amount ∈ cpus? d, ¬ amount.Overlong) := by
  constructor
  · intro h hmissing amount hcpus hlong
    exact fault?_ne_of_overlong hmissing hcpus hlong ((settles_plan c o d).unique h)
  · intro h
    have hfault : fault? Amount.Accepted c o d = fault? Amount.IsPositiveInteger c o d := by
      unfold fault?
      by_cases hmissing : d.missingInPlace c = []
      · rw [cpusFault?_of_not_overlong (h hmissing)]
      · rw [if_neg hmissing, Option.some_or, Option.some_or]
    exact hfault ▸ settles_plan c o d

end

theorem exists_invalidPort {ports : List String} {fault : PlanError}
    (h : checkAll Port.check ports = .error fault) : ∃ port, fault = .invalidPort port := by
  rcases (settles_checkPorts ports).cases with ⟨fault', hfault, hports⟩ | ⟨-, passed, hports⟩
  · obtain ⟨port, -, rfl⟩ := Option.map_eq_some_iff.1 hfault
    rw [h] at hports
    exact ⟨port, Except.error.inj hports⟩
  · rw [h] at hports
    cases hports

/-- Planning fails with its first fault, and without a fault there is a launch. A number of
processors is at fault when it is no positive whole number. This is the whole rule as long as no
number is spelt out that takes more than 64 bits. Whatever its mounts are made of, the check of a
launch that was made finds no fault with its image or a mount. -/
theorem plan_outcome (c : Context) (o : Options) (d : Descriptor) :
    Settles (fault? Amount.Accepted c o d) (plan c o d) ∧
    (Settles (fault? Amount.IsPositiveInteger c o d) (plan c o d) ↔
      (d.missingInPlace c = [] → ∀ amount ∈ cpus? d, ¬ amount.Overlong)) ∧
    ∀ (e : Descriptor) (launch : Launch), ofDescriptor o e = .ok launch →
      launch.check ≠ .error .noImage ∧
      ∀ mount cause, launch.check ≠ .error (.invalidMount mount cause) := by
  refine ⟨settles_plan c o d, settles_isPositiveInteger_iff, fun e launch hlaunch => ?_⟩
  rw [check_of_ofDescriptor hlaunch]
  constructor
  · intro hcheck
    obtain ⟨port, hport⟩ := exists_invalidPort hcheck
    cases hport
  · intro mount cause hcheck
    obtain ⟨port, hport⟩ := exists_invalidPort hcheck
    cases hport

def withCpus (amount : Amount) : Descriptor :=
  { Descriptor.empty with
    selector := some (.image "alpine")
    hostRequirements := some
      { cpus := some amount, memory := none, storage := none, gpu := none, other := .empty } }

/-- A number that takes 65 bits is refused when it is spelt out. -/
theorem not_settles_isPositiveInteger : ¬ ∀ (c : Context) (o : Options) (d : Descriptor),
    Settles (fault? Amount.IsPositiveInteger c o d) (plan c o d) := by
  intro h
  have hsettles := h (.ofRoot "/w" fun _ => none) (optionsAt "/w")
    (withCpus (.text "18446744073709551616"))
  have hoverlong : Amount.Overlong (.text "18446744073709551616") := by decide +kernel
  exact settles_isPositiveInteger_iff.1 hsettles (by decide +kernel) _ rfl hoverlong

def oddMount : Mount :=
  { kind := .bind, source := some "/a,type", target := " ,target", readOnly := true, extra := [""] }

theorem plan_outcome_oddMount :
    let c := Context.ofRoot "/w" fun _ => none
    let o := { optionsAt "/w" with mounts := [oddMount] }
    let d := withCpus (.text " +04 ")
    let e := { Descriptor.empty with
      selector := some (.image "alpine")
      mounts := [.fields ⟨none, some "=,b", some ",", none⟩] }
    Settles (fault? Amount.IsPositiveInteger c o d) (plan c o d) ∧
    ∃ launch, ofDescriptor o e = .ok launch ∧ launch.check ≠ .error .noImage ∧
      ∀ mount cause, launch.check ≠ .error (.invalidMount mount cause) := by
  intro c o d e
  have hcpus : ¬ Amount.Overlong (.text " +04 ") := by decide +kernel
  have hlaunch : ∃ launch, ofDescriptor o e = .ok launch := ⟨_, rfl⟩
  obtain ⟨launch, hlaunch⟩ := hlaunch
  obtain ⟨-, hpositive, hchecked⟩ := plan_outcome c o d
  refine ⟨hpositive.2 fun _ amount hamount => ?_, launch, hlaunch, hchecked e launch hlaunch⟩
  rw [← Option.some.inj hamount]
  exact hcpus

end Launch

end Devcontainer
