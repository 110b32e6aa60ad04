import Devcontainer.Proofs.Descriptor.Precedence
import Devcontainer.Proofs.Json.Merge

/-!
# Merging the same overlay again

An overlay that has been merged changes nothing when it is merged again: each rule gives back what it
came to, and the selector that has been switched to is now the selector of the base. A descriptor
merged with itself or with an empty overlay stays the same for the same reason.
-/

namespace Devcontainer

namespace OrderedMap

variable {α : Type}

theorem insertAll_eq_self {m : OrderedMap α} {pairs : List (String × α)}
    (h : ∀ p ∈ pairs, m.get? p.1 = some p.2) : m.insertAll pairs = m := by
  induction pairs with
  | nil => rfl
  | cons p pairs ih =>
      have hinsert : m.insert p.1 p.2 = m :=
        ext (Entries.put_of_lookup_eq (h p (List.mem_cons_self ..)))
      rw [insertAll_cons, hinsert]
      exact ih fun p hp => h p (List.mem_cons_of_mem _ hp)

theorem get?_of_mem {m : OrderedMap α} {e : String × α} (he : e ∈ m.entries) :
    m.get? e.1 = some e.2 :=
  lookup_of_mem m.distinct he

theorem union_self (m : OrderedMap α) : m.union m = m :=
  insertAll_eq_self fun _ he => get?_of_mem he

theorem union_union_self (base upper : OrderedMap α) :
    (base.union upper).union upper = base.union upper := by
  refine insertAll_eq_self fun e he => ?_
  rw [get?_union, get?_of_mem he, Option.some_or]

end OrderedMap

namespace Merge

theorem or_or_self {α : Type} (first second : Option α) :
    first.or (first.or second) = first.or second := by
  rw [← Option.or_assoc, Option.or_self]

theorem text_text_self (base upper : Option String) :
    text (text base upper) upper = text base upper := by
  rw [text_eq_or, text_eq_or, or_or_self]

theorem selector_selector_self (base upper : Option Selector) :
    selector (selector base upper) upper = selector base upper := by
  rw [selector_eq_or, selector_eq_or, or_or_self]

theorem selector_self (s : Option Selector) : selector s s = s := by
  cases s <;> simp [selector]

theorem list_list_self {α : Type} (base upper : List α) :
    list (list base upper) upper = list base upper := by
  unfold list
  split <;> rfl

theorem json_self {v : Option Json} (h : ∀ u ∈ v, u.DistinctKeys) : json v v = v := by
  cases v with
  | none => rfl
  | some v => exact congrArg some (v.merge_self (h v rfl))

theorem json_json_self (base : Option Json) {upper : Option Json}
    (h : ∀ v ∈ upper, v.DistinctKeys) : json (json base upper) upper = json base upper := by
  cases upper with
  | none => cases base <;> rfl
  | some v =>
      cases base with
      | none => exact json_self h
      | some base => exact congrArg some (v.merge_merge_self (h v rfl) base)

theorem switches_self (s : Option Selector) : switches s s = false := by
  cases s <;> simp [switches]

/-- Once an overlay has switched the selector, it does not switch it again. -/
theorem switches_selector (base upper : Option Selector) :
    switches (selector base upper) upper = false := by
  cases upper with
  | none => cases base <;> rfl
  | some s =>
      by_cases hs : s.isEmpty = true
      · cases base <;> simp [selector, switches, hs]
      · simp [selector, switches, hs]

end Merge

theorem Hooks.overlay_overlay_self (base upper : Hooks) :
    (base.overlay upper).overlay upper = base.overlay upper := by
  ext1 hook
  exact Merge.or_or_self _ _

theorem Hooks.overlay_self (hooks : Hooks) : hooks.overlay hooks = hooks := by
  ext1 hook
  exact Option.or_self

namespace Descriptor

theorem merge_of_not_switches {base upper : Descriptor}
    (h : Merge.switches base.selector upper.selector = false) : base.merge upper =
      { ancestor := Merge.text base.ancestor upper.ancestor
        name := Merge.text base.name upper.name
        selector := Merge.selector base.selector upper.selector
        build := upper.build.or base.build
        service := Merge.text base.service upper.service
        runServices := Merge.list base.runServices upper.runServices
        workspaceFolder := Merge.text base.workspaceFolder upper.workspaceFolder
        workspaceMount := Merge.text base.workspaceMount upper.workspaceMount
        containerEnv := base.containerEnv.union upper.containerEnv
        remoteEnv := base.remoteEnv.union upper.remoteEnv
        containerUser := Merge.text base.containerUser upper.containerUser
        remoteUser := Merge.text base.remoteUser upper.remoteUser
        forwardPorts := Merge.list base.forwardPorts upper.forwardPorts
        appPorts := Merge.list base.appPorts upper.appPorts
        runArgs := upper.runArgs.or base.runArgs
        hooks := base.hooks.overlay upper.hooks
        mounts := Merge.list base.mounts upper.mounts
        capAdd := Merge.list base.capAdd upper.capAdd
        securityOpt := Merge.list base.securityOpt upper.securityOpt
        init := upper.init.or base.init
        privileged := upper.privileged.or base.privileged
        features := base.features.union upper.features
        customizations := Merge.json base.customizations upper.customizations
        hostRequirements := upper.hostRequirements.or base.hostRequirements
        other := base.other.union upper.other } := by
  simp only [merge, h]
  rfl

theorem merge_empty (d : Descriptor) : d.merge empty = d := by
  have hswitch : Merge.switches d.selector empty.selector = false := by
    cases d.selector <;> rfl
  have hjson : Merge.json d.customizations none = d.customizations := by
    cases d.customizations <;> rfl
  have hhooks : d.hooks.overlay .empty = d.hooks := rfl
  rw [merge_of_not_switches hswitch]
  simp only [empty, hjson, hhooks, Option.none_or]
  rfl

theorem merge_self {d : Descriptor} (h : ∀ v ∈ d.customizations, v.DistinctKeys) :
    d.merge d = d := by
  rw [merge_of_not_switches (Merge.switches_self _)]
  simp only [Merge.text_self, Merge.selector_self, Merge.list_self, Option.or_self,
    OrderedMap.union_self, Hooks.overlay_self, Merge.json_self h]

theorem merge_merge_self (base : Descriptor) {upper : Descriptor}
    (h : ∀ v ∈ upper.customizations, v.DistinctKeys) :
    (base.merge upper).merge upper = base.merge upper := by
  rw [merge_of_not_switches (Merge.switches_selector _ _)]
  simp only [merge, Merge.text_text_self, Merge.selector_selector_self, Merge.list_list_self,
    Merge.or_or_self, OrderedMap.union_union_self, Hooks.overlay_overlay_self,
    Merge.json_json_self _ h]

/-- An overlay that has been merged once is merged for good, a descriptor adds nothing to itself, and
an empty overlay adds nothing to any. -/
theorem merge_idempotent (d : Descriptor) :
    d.merge empty = d ∧
    ((∀ v ∈ d.customizations, v.DistinctKeys) →
      d.merge d = d ∧ ∀ base : Descriptor, (base.merge d).merge d = base.merge d) :=
  ⟨merge_empty d, fun h => ⟨merge_self h, fun base => merge_merge_self base h⟩⟩

def composed : Descriptor :=
  { empty with
    selector := some (.compose ["a.yml"])
    service := some "db"
    runServices := ["cache"]
    containerEnv := .ofList [("B", "1"), ("A", "2")]
    customizations := some (.object [("editor", .object [("theme", .string "dark")])]) }

def overImage : Descriptor :=
  { empty with
    name := some ""
    selector := some (.image "alpine")
    service := some ""
    containerEnv := .ofList [("C", "3"), ("B", "4")]
    customizations := some (.object [
      ("fonts", .null), ("editor", .object [("theme", .object []), ("size", .bool true)])]) }

theorem merge_idempotent_overImage :
    (∀ v ∈ overImage.customizations, v.DistinctKeys) ∧
    composed.merge overImage ≠ overImage ∧
    (composed.merge overImage).merge overImage = composed.merge overImage := by
  have hdistinct : ∀ v ∈ overImage.customizations, v.DistinctKeys := by
    simp [overImage, Json.DistinctKeys, Json.DistinctKeysMembers]
  have hne : composed.merge overImage ≠ overImage := by decide +kernel
  exact ⟨hdistinct, hne, ((merge_idempotent overImage).2 hdistinct).2 composed⟩

end Descriptor

end Devcontainer
