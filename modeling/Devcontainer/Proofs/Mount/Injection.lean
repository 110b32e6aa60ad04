import Devcontainer.Mount.Basic
import Mathlib.Data.List.Basic

/-!
# Injected mounts

An injection puts its mounts behind those of the declared ones whose targets it leaves alone. The
targets of the result are those of both sides, so it does not matter which of three lists are put
together first.
-/

namespace Devcontainer.Mount

def targets (mounts : List Mount) : List String :=
  mounts.map Mount.target

def spared (mounts others : List Mount) : List Mount :=
  mounts.filter (·.target ∉ targets others)

theorem inject_eq (declared injected : List Mount) :
    inject declared injected = spared declared injected ++ injected := by
  have hspared : ∀ m ∈ declared,
      (!injected.any (·.target == m.target)) = decide (m.target ∉ targets injected) := by
    intro m _
    rw [Bool.eq_iff_iff]
    simp [targets]
  rw [inject, spared, List.filter_congr hspared]

/-! ## Spared mounts -/

theorem target_mem_targets {mounts : List Mount} {m : Mount} (h : m ∈ mounts) :
    m.target ∈ targets mounts :=
  List.mem_map_of_mem h

theorem mem_targets_spared {mounts others : List Mount} {target : String} :
    target ∈ targets (spared mounts others) ↔ target ∈ targets mounts ∧ target ∉ targets others := by
  simp only [targets, spared, List.mem_map, List.mem_filter, decide_eq_true_eq]
  constructor
  · rintro ⟨m, ⟨hm, hspared⟩, rfl⟩
    exact ⟨⟨m, hm, rfl⟩, hspared⟩
  · rintro ⟨⟨m, hm, rfl⟩, hspared⟩
    exact ⟨m, ⟨hm, hspared⟩, rfl⟩

theorem mem_targets_inject {declared injected : List Mount} {target : String} :
    target ∈ targets (inject declared injected) ↔
      target ∈ targets declared ∨ target ∈ targets injected := by
  have happend : targets (inject declared injected) =
      targets (spared declared injected) ++ targets injected := by
    rw [inject_eq, targets, List.map_append]
    rfl
  rw [happend, List.mem_append, mem_targets_spared]
  by_cases h : target ∈ targets injected <;> simp [h]

theorem spared_append (mounts mounts' others : List Mount) :
    spared (mounts ++ mounts') others = spared mounts others ++ spared mounts' others :=
  List.filter_append ..

/-- What two lists spare one after the other is what the one injected into the other spares. -/
theorem spared_spared (mounts first second : List Mount) :
    spared (spared mounts first) second = spared mounts (inject first second) := by
  rw [spared, spared, spared, List.filter_filter]
  refine List.filter_congr fun m _ => ?_
  simp [mem_targets_inject, Bool.and_comm]

theorem spared_self (mounts : List Mount) : spared mounts mounts = [] :=
  List.filter_eq_nil_iff.2 fun m hm => by simpa using target_mem_targets hm

/-! ## Injections -/

theorem inject_inject (declared first second : List Mount) :
    inject (inject declared first) second = inject declared (inject first second) := by
  calc inject (inject declared first) second
      = spared (spared declared first ++ first) second ++ second := by
        rw [inject_eq, inject_eq]
    _ = spared (spared declared first) second ++ (spared first second ++ second) := by
        rw [spared_append, List.append_assoc]
    _ = spared declared (inject first second) ++ inject first second := by
        rw [spared_spared, inject_eq]
    _ = inject declared (inject first second) := (inject_eq ..).symm

theorem inject_self (mounts : List Mount) : inject mounts mounts = mounts := by
  rw [inject_eq, spared_self, List.nil_append]

theorem inject_nil (declared : List Mount) : inject declared [] = declared := by
  simp [inject]

theorem filter_inject (declared injected : List Mount) :
    (inject declared injected).filter (·.target ∈ targets injected) = injected := by
  have hspared : (spared declared injected).filter (·.target ∈ targets injected) = [] :=
    List.filter_eq_nil_iff.2 fun m hm => by simpa using (List.mem_filter.1 hm).2
  have hinjected : injected.filter (·.target ∈ targets injected) = injected :=
    List.filter_eq_self.2 fun m hm => by simpa using target_mem_targets hm
  rw [inject_eq, List.filter_append, hspared, hinjected, List.nil_append]

/-- Injections compose: two rounds are one round with the second list injected into the first, a
repeated round changes nothing, and nothing is injected by an empty one. A round keeps the mounts
whose targets it does not have, in their order and in front, and at its own targets the result has
its mounts and no others. -/
theorem inject_composes (declared first second : List Mount) :
    inject (inject declared first) second = inject declared (inject first second) ∧
      inject (inject declared first) first = inject declared first ∧
      inject declared [] = declared ∧
      inject declared first =
        declared.filter (·.target ∉ first.map Mount.target) ++ first ∧
      (inject declared first).filter (·.target ∈ first.map Mount.target) = first := by
  refine ⟨inject_inject declared first second, ?_, inject_nil declared, inject_eq declared first,
    filter_inject declared first⟩
  rw [inject_inject, inject_self]

end Devcontainer.Mount
