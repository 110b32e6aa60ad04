import Devcontainer.Proofs.Descriptor.Merge

/-!
# What a list of descriptors merges to

Every part of the merged descriptor has a rule that names the descriptors it comes from. The build
and the compose settings come only from those behind the last change to another kind of container.
-/

namespace Devcontainer

theorem Merge.text_eq_or (base overlay : Option String) :
    Merge.text base overlay = (overlay.filter (!·.isEmpty)).or base := by
  cases overlay with
  | none => rfl
  | some s => cases hs : s.isEmpty <;> simp [Merge.text, Option.filter, hs]

theorem Merge.selector_eq_or (base overlay : Option Selector) :
    Merge.selector base overlay = (overlay.filter (!·.isEmpty)).or base := by
  cases overlay with
  | none => rfl
  | some s => cases hs : s.isEmpty <;> simp [Merge.selector, Option.filter, hs]

theorem Merge.text_self (s : Option String) : Merge.text s s = s := by
  cases s <;> simp [Merge.text]

theorem Merge.list_self {α : Type} (l : List α) : Merge.list l l = l := ite_self l

theorem Merge.switches_eq_true_iff {base overlay : Option Selector} :
    Merge.switches base overlay = true ↔
      ∃ b s, base = some b ∧ overlay = some s ∧ s.isEmpty = false ∧ b.kind ≠ s.kind := by
  cases base <;> cases overlay <;> simp [Merge.switches]

namespace Descriptor

variable {α : Type}

/-! ## The rules -/

def lastDeclared (get : Descriptor → Option α) (ds : List Descriptor) : Option α :=
  (ds.filterMap get).getLast?

/-- The last value that is not empty, or what the first descriptor has when all are. -/
def lastNonEmpty (isEmpty : α → Bool) (get : Descriptor → Option α) (ds : List Descriptor) :
    Option α :=
  ((ds.filterMap get).filter (!isEmpty ·)).getLast?.or (ds.head?.bind get)

def lastText (get : Descriptor → Option String) (ds : List Descriptor) : Option String :=
  lastNonEmpty String.isEmpty get ds

def lastSelector (ds : List Descriptor) : Option Selector :=
  lastNonEmpty Selector.isEmpty (·.selector) ds

def lastList (get : Descriptor → List α) (ds : List Descriptor) : List α :=
  ((ds.map get).filter (!·.isEmpty)).getLast?.getD []

/-- The map has the keys of all descriptors in the order in which they first come, each with the
value of the last descriptor that has the key. -/
structure IsUnion (get : Descriptor → OrderedMap α) (ds : List Descriptor) (m : OrderedMap α) :
    Prop where
  keys : m.keys = (ds.flatMap fun d => (get d).keys).eraseDups
  value : ∀ key, m.get? key = lastDeclared (fun d => (get d).get? key) ds

def mergedJson (get : Descriptor → Option Json) (ds : List Descriptor) : Option Json :=
  match ds.filterMap get with
  | [] => none
  | first :: rest => some (rest.foldl Json.merge first)

/-- The descriptor at a position selects another kind of container than is selected before it. -/
def SwitchesAt (ds : List Descriptor) (i : Nat) : Prop :=
  ∃ before d s, lastSelector (ds.take i) = some before ∧ ds[i]? = some d ∧
    d.selector = some s ∧ s.isEmpty = false ∧ before.kind ≠ s.kind

/-- Where another kind of container is selected for the last time; the beginning if it never is. -/
structure LastSwitch (ds : List Descriptor) (s : Nat) : Prop where
  lt_length : s < ds.length
  switchesAt : s ≠ 0 → SwitchesAt ds s
  last : ∀ i, s < i → ¬ SwitchesAt ds i

structure Companions (ds : List Descriptor) (m : Descriptor) : Prop where
  build : m.build = lastDeclared (·.build) ds
  service : m.service = lastText (·.service) ds
  runServices : m.runServices = lastList (·.runServices) ds

/-- Part by part, what the descriptors of a list come to when each is merged over those before it. -/
structure Precedence (ds : List Descriptor) (m : Descriptor) : Prop where
  ancestor : m.ancestor = lastText (·.ancestor) ds
  name : m.name = lastText (·.name) ds
  selector : m.selector = lastSelector ds
  companions : ∃ s, LastSwitch ds s ∧ Companions (ds.drop s) m
  workspaceFolder : m.workspaceFolder = lastText (·.workspaceFolder) ds
  workspaceMount : m.workspaceMount = lastText (·.workspaceMount) ds
  containerEnv : IsUnion (·.containerEnv) ds m.containerEnv
  remoteEnv : IsUnion (·.remoteEnv) ds m.remoteEnv
  containerUser : m.containerUser = lastText (·.containerUser) ds
  remoteUser : m.remoteUser = lastText (·.remoteUser) ds
  forwardPorts : m.forwardPorts = lastList (·.forwardPorts) ds
  appPorts : m.appPorts = lastList (·.appPorts) ds
  runArgs : m.runArgs = lastDeclared (·.runArgs) ds
  hooks : ∀ hook, m.hooks.get hook = lastDeclared (·.hooks.get hook) ds
  mounts : m.mounts = lastList (·.mounts) ds
  capAdd : m.capAdd = lastList (·.capAdd) ds
  securityOpt : m.securityOpt = lastList (·.securityOpt) ds
  init : m.init = lastDeclared (·.init) ds
  privileged : m.privileged = lastDeclared (·.privileged) ds
  features : IsUnion (·.features) ds m.features
  customizations : m.customizations = mergedJson (·.customizations) ds
  hostRequirements : m.hostRequirements = lastDeclared (·.hostRequirements) ds
  other : IsUnion (·.other) ds m.other

/-! ## One descriptor -/

theorem lastDeclared_singleton (get : Descriptor → Option α) (d : Descriptor) :
    lastDeclared get [d] = get d := by
  unfold lastDeclared
  cases hd : get d <;> simp [hd]

theorem lastNonEmpty_singleton (isEmpty : α → Bool) (get : Descriptor → Option α)
    (d : Descriptor) : lastNonEmpty isEmpty get [d] = get d := by
  unfold lastNonEmpty
  cases hd : get d with
  | none => simp [hd]
  | some a => cases ha : isEmpty a <;> simp [hd, ha]

theorem lastList_singleton (get : Descriptor → List α) (d : Descriptor) :
    lastList get [d] = get d := by
  unfold lastList
  cases hd : get d <;> simp [hd]

theorem isUnion_singleton (get : Descriptor → OrderedMap α) (d : Descriptor) :
    IsUnion get [d] (get d) where
  keys := by rw [List.flatMap_singleton, OrderedMap.eraseDups_keys]
  value key := (lastDeclared_singleton (fun d => (get d).get? key) d).symm

theorem mergedJson_singleton (get : Descriptor → Option Json) (d : Descriptor) :
    mergedJson get [d] = get d := by
  unfold mergedJson
  cases hd : get d <;> simp [hd]

theorem lastSwitch_singleton (d : Descriptor) : LastSwitch [d] 0 where
  lt_length := Nat.zero_lt_one
  switchesAt h := absurd rfl h
  last i hi := by
    rintro ⟨-, e, -, -, he, -⟩
    obtain ⟨hlt, -⟩ := List.getElem?_eq_some_iff.1 he
    rw [List.length_singleton] at hlt
    omega

theorem companions_singleton (d : Descriptor) : Companions [d] d where
  build := (lastDeclared_singleton _ d).symm
  service := (lastNonEmpty_singleton _ _ d).symm
  runServices := (lastList_singleton _ d).symm

theorem precedence_singleton (d : Descriptor) : Precedence [d] d where
  ancestor := (lastNonEmpty_singleton _ _ d).symm
  name := (lastNonEmpty_singleton _ _ d).symm
  selector := (lastNonEmpty_singleton _ _ d).symm
  companions := ⟨0, lastSwitch_singleton d, companions_singleton d⟩
  workspaceFolder := (lastNonEmpty_singleton _ _ d).symm
  workspaceMount := (lastNonEmpty_singleton _ _ d).symm
  containerEnv := isUnion_singleton _ d
  remoteEnv := isUnion_singleton _ d
  containerUser := (lastNonEmpty_singleton _ _ d).symm
  remoteUser := (lastNonEmpty_singleton _ _ d).symm
  forwardPorts := (lastList_singleton _ d).symm
  appPorts := (lastList_singleton _ d).symm
  runArgs := (lastDeclared_singleton _ d).symm
  hooks hook := (lastDeclared_singleton (·.hooks.get hook) d).symm
  mounts := (lastList_singleton _ d).symm
  capAdd := (lastList_singleton _ d).symm
  securityOpt := (lastList_singleton _ d).symm
  init := (lastDeclared_singleton _ d).symm
  privileged := (lastDeclared_singleton _ d).symm
  features := isUnion_singleton _ d
  customizations := (mergedJson_singleton _ d).symm
  hostRequirements := (lastDeclared_singleton _ d).symm
  other := isUnion_singleton _ d

/-! ## One descriptor more -/

theorem or_eq_lastDeclared {get : Descriptor → Option α} {ds : List Descriptor} {base : Option α}
    (h : base = lastDeclared get ds) (e : Descriptor) :
    (get e).or base = lastDeclared get (ds ++ [e]) := by
  subst h
  unfold lastDeclared
  cases he : get e <;> simp [he]

theorem or_eq_lastNonEmpty {isEmpty : α → Bool} {get : Descriptor → Option α}
    {ds : List Descriptor} {base : Option α} (hds : ds ≠ [])
    (h : base = lastNonEmpty isEmpty get ds) (e : Descriptor) :
    ((get e).filter (!isEmpty ·)).or base = lastNonEmpty isEmpty get (ds ++ [e]) := by
  subst h
  unfold lastNonEmpty
  have hhead : (ds ++ [e]).head? = ds.head? := by
    cases ds with
    | nil => exact absurd rfl hds
    | cons d ds => rfl
  rw [hhead, List.filterMap_append, List.filter_append, List.getLast?_append, Option.or_assoc]
  -- the value to fall back on stays that of the first descriptor
  congr 1
  cases he : get e with
  | none => simp [he]
  | some a => cases ha : isEmpty a <;> simp [Option.filter, he, ha]

theorem text_eq_lastText {get : Descriptor → Option String} {ds : List Descriptor}
    {base : Option String} (hds : ds ≠ []) (h : base = lastText get ds) (e : Descriptor) :
    Merge.text base (get e) = lastText get (ds ++ [e]) :=
  (Merge.text_eq_or base (get e)).trans (or_eq_lastNonEmpty hds h e)

theorem list_eq_lastList {get : Descriptor → List α} {ds : List Descriptor} {base : List α}
    (h : base = lastList get ds) (e : Descriptor) :
    Merge.list base (get e) = lastList get (ds ++ [e]) := by
  subst h
  unfold lastList
  rw [List.map_append]
  cases he : get e <;> simp [Merge.list, he]

theorem IsUnion.union {get : Descriptor → OrderedMap α} {ds : List Descriptor}
    {m : OrderedMap α} (h : IsUnion get ds m) (e : Descriptor) :
    IsUnion get (ds ++ [e]) (m.union (get e)) where
  keys := by
    rw [OrderedMap.keys_union_of_eraseDups h.keys, List.flatMap_append, List.flatMap_singleton]
  value key := by
    rw [OrderedMap.get?_union]
    exact or_eq_lastDeclared (h.value key) e

theorem json_eq_mergedJson {get : Descriptor → Option Json} {ds : List Descriptor}
    {base : Option Json} (h : base = mergedJson get ds) (e : Descriptor) :
    Merge.json base (get e) = mergedJson get (ds ++ [e]) := by
  subst h
  unfold mergedJson
  rw [List.filterMap_append]
  cases ds.filterMap get <;> cases he : get e <;> simp [Merge.json, he]

theorem SwitchesAt.lt_length {ds : List Descriptor} {i : Nat} (h : SwitchesAt ds i) :
    i < ds.length := by
  obtain ⟨-, d, -, -, hd, -⟩ := h
  exact (List.getElem?_eq_some_iff.1 hd).1

theorem switchesAt_append_of_lt {ds : List Descriptor} {i : Nat} (hi : i < ds.length)
    (e : Descriptor) : SwitchesAt (ds ++ [e]) i ↔ SwitchesAt ds i := by
  unfold SwitchesAt
  rw [List.take_append_of_le_length (Nat.le_of_lt hi), List.getElem?_append_left hi]

theorem switchesAt_length {ds : List Descriptor} {e : Descriptor} :
    SwitchesAt (ds ++ [e]) ds.length ↔
      Merge.switches (lastSelector ds) e.selector = true := by
  unfold SwitchesAt
  rw [Merge.switches_eq_true_iff, List.take_left' rfl, List.getElem?_concat_length]
  simp

theorem lastSwitch_length {ds : List Descriptor} {e : Descriptor}
    (h : Merge.switches (lastSelector ds) e.selector = true) :
    LastSwitch (ds ++ [e]) ds.length where
  lt_length := by simp
  switchesAt _ := switchesAt_length.2 h
  last i hi hat := by
    have hlt := hat.lt_length
    rw [List.length_append, List.length_singleton] at hlt
    omega

theorem LastSwitch.append {ds : List Descriptor} {e : Descriptor} {s : Nat} (h : LastSwitch ds s)
    (hswitch : Merge.switches (lastSelector ds) e.selector = false) :
    LastSwitch (ds ++ [e]) s where
  lt_length := by
    rw [List.length_append]
    exact Nat.lt_add_right _ h.lt_length
  switchesAt hs := (switchesAt_append_of_lt h.lt_length e).2 (h.switchesAt hs)
  last i hi hat := by
    have hlt := hat.lt_length
    rw [List.length_append, List.length_singleton] at hlt
    rcases Nat.lt_succ_iff_lt_or_eq.1 hlt with hlt | rfl
    · exact h.last i hi ((switchesAt_append_of_lt hlt e).1 hat)
    · rw [switchesAt_length, hswitch] at hat
      cases hat

theorem Companions.merge {ds : List Descriptor} {m : Descriptor} (hds : ds ≠ [])
    (h : Companions ds m) {e : Descriptor}
    (hswitch : Merge.switches m.selector e.selector = false) :
    Companions (ds ++ [e]) (m.merge e) := by
  constructor <;> simp only [Descriptor.merge, hswitch]
  · exact or_eq_lastDeclared h.build e
  · exact text_eq_lastText hds h.service e
  · exact list_eq_lastList h.runServices e

theorem companions_merge_of_switches {m e : Descriptor}
    (hswitch : Merge.switches m.selector e.selector = true) : Companions [e] (m.merge e) := by
  constructor <;> simp only [Descriptor.merge, hswitch, if_true]
  · rw [Option.or_self, lastDeclared_singleton]
  · rw [Merge.text_self, lastText, lastNonEmpty_singleton]
  · rw [Merge.list_self, lastList_singleton]

/-- A switch leaves the overlay's own companions; otherwise it joins those since the last one. -/
theorem exists_lastSwitch_merge {ds : List Descriptor} {m : Descriptor}
    (hselector : m.selector = lastSelector ds)
    (h : ∃ s, LastSwitch ds s ∧ Companions (ds.drop s) m) (e : Descriptor) :
    ∃ s, LastSwitch (ds ++ [e]) s ∧ Companions ((ds ++ [e]).drop s) (m.merge e) := by
  obtain ⟨s, hs, hm⟩ := h
  -- what is selected before the overlay is what the base selects
  cases hswitch : Merge.switches m.selector e.selector with
  | true =>
      refine ⟨ds.length, lastSwitch_length (hselector ▸ hswitch), ?_⟩
      rw [List.drop_left' rfl]
      exact companions_merge_of_switches hswitch
  | false =>
      have hdrop : ds.drop s ≠ [] := by
        rw [Ne, List.drop_eq_nil_iff, Nat.not_le]
        exact hs.lt_length
      refine ⟨s, hs.append (hselector ▸ hswitch), ?_⟩
      rw [List.drop_append_of_le_length (Nat.le_of_lt hs.lt_length)]
      exact hm.merge hdrop hswitch

theorem Precedence.merge {ds : List Descriptor} {m : Descriptor} (hds : ds ≠ [])
    (h : Precedence ds m) (e : Descriptor) : Precedence (ds ++ [e]) (m.merge e) where
  ancestor := text_eq_lastText hds h.ancestor e
  name := text_eq_lastText hds h.name e
  selector := (Merge.selector_eq_or ..).trans (or_eq_lastNonEmpty hds h.selector e)
  companions := exists_lastSwitch_merge h.selector h.companions e
  workspaceFolder := text_eq_lastText hds h.workspaceFolder e
  workspaceMount := text_eq_lastText hds h.workspaceMount e
  containerEnv := h.containerEnv.union e
  remoteEnv := h.remoteEnv.union e
  containerUser := text_eq_lastText hds h.containerUser e
  remoteUser := text_eq_lastText hds h.remoteUser e
  forwardPorts := list_eq_lastList h.forwardPorts e
  appPorts := list_eq_lastList h.appPorts e
  runArgs := or_eq_lastDeclared h.runArgs e
  hooks hook := or_eq_lastDeclared (h.hooks hook) e
  mounts := list_eq_lastList h.mounts e
  capAdd := list_eq_lastList h.capAdd e
  securityOpt := list_eq_lastList h.securityOpt e
  init := or_eq_lastDeclared h.init e
  privileged := or_eq_lastDeclared h.privileged e
  features := h.features.union e
  customizations := json_eq_mergedJson h.customizations e
  hostRequirements := or_eq_lastDeclared h.hostRequirements e
  other := h.other.union e

/-! ## The whole list -/

theorem precedence_foldl_merge (d : Descriptor) (ds : List Descriptor) :
    Precedence (d :: ds) (ds.foldl merge d) := by
  induction ds using List.reverseRecOn with
  | nil => exact precedence_singleton d
  | append_singleton ds e ih =>
      rw [List.foldl_append]
      exact ih.merge (List.cons_ne_nil d ds) e

theorem IsUnion.unique {get : Descriptor → OrderedMap α} {ds : List Descriptor}
    {m m' : OrderedMap α} (h : IsUnion get ds m) (h' : IsUnion get ds m') : m = m' :=
  OrderedMap.ext_get? (h.keys.trans h'.keys.symm) fun key =>
    (h.value key).trans (h'.value key).symm

theorem LastSwitch.unique {ds : List Descriptor} {s s' : Nat} (h : LastSwitch ds s)
    (h' : LastSwitch ds s') : s = s' := by
  rcases Nat.lt_trichotomy s s' with hlt | heq | hlt
  · exact absurd (h'.switchesAt (Nat.ne_zero_of_lt hlt)) (h.last s' hlt)
  · exact heq
  · exact absurd (h.switchesAt (Nat.ne_zero_of_lt hlt)) (h'.last s hlt)

theorem Precedence.unique {ds : List Descriptor} {m m' : Descriptor} (h : Precedence ds m)
    (h' : Precedence ds m') : m = m' := by
  obtain ⟨s, hs, hc⟩ := h.companions
  obtain ⟨s', hs', hc'⟩ := h'.companions
  obtain rfl : s = s' := hs.unique hs'
  apply Descriptor.ext
  case ancestor => exact h.ancestor.trans h'.ancestor.symm
  case name => exact h.name.trans h'.name.symm
  case selector => exact h.selector.trans h'.selector.symm
  case build => exact hc.build.trans hc'.build.symm
  case service => exact hc.service.trans hc'.service.symm
  case runServices => exact hc.runServices.trans hc'.runServices.symm
  case workspaceFolder => exact h.workspaceFolder.trans h'.workspaceFolder.symm
  case workspaceMount => exact h.workspaceMount.trans h'.workspaceMount.symm
  case containerEnv => exact h.containerEnv.unique h'.containerEnv
  case remoteEnv => exact h.remoteEnv.unique h'.remoteEnv
  case containerUser => exact h.containerUser.trans h'.containerUser.symm
  case remoteUser => exact h.remoteUser.trans h'.remoteUser.symm
  case forwardPorts => exact h.forwardPorts.trans h'.forwardPorts.symm
  case appPorts => exact h.appPorts.trans h'.appPorts.symm
  case runArgs => exact h.runArgs.trans h'.runArgs.symm
  case hooks => exact Hooks.ext fun hook => (h.hooks hook).trans (h'.hooks hook).symm
  case mounts => exact h.mounts.trans h'.mounts.symm
  case capAdd => exact h.capAdd.trans h'.capAdd.symm
  case securityOpt => exact h.securityOpt.trans h'.securityOpt.symm
  case init => exact h.init.trans h'.init.symm
  case privileged => exact h.privileged.trans h'.privileged.symm
  case features => exact h.features.unique h'.features
  case customizations => exact h.customizations.trans h'.customizations.symm
  case hostRequirements => exact h.hostRequirements.trans h'.hostRequirements.symm
  case other => exact h.other.unique h'.other

/-- Any descriptors, one or more, merge to a descriptor, and it is the one that the rules describe. -/
theorem mergeAll?_precedence (d : Descriptor) (ds : List Descriptor) :
    ∃ m, mergeAll? (d :: ds) = some m ∧ ∀ other, Precedence (d :: ds) other ↔ other = m := by
  have hm := precedence_foldl_merge d ds
  refine ⟨ds.foldl merge d, mergeAll?_cons d ds, fun other => ?_⟩
  constructor
  · intro h
    exact h.unique hm
  · rintro rfl
    exact hm

/-- The service of the first project is not that of the second: an image was selected in between. -/
example :
    (mergeAll? [
      { empty with selector := some (.compose ["a.yml"]), service := some "app" },
      { empty with selector := some (.image "alpine") },
      { empty with selector := some (.compose ["b.yml"]) }]).map (·.service) = some none := by
  decide

end Descriptor

end Devcontainer
