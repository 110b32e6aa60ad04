import Devcontainer.Port
import Mathlib.Data.List.Basic

/-!
# Collected ports

A walk over the mappings keeps each at its first occurrence. What it has seen matters only by which
mappings are in it, so a walk over a list that is continued goes on where the first part ended.
-/

namespace Devcontainer.Port

/-! ## First occurrences -/

theorem mem_firstOccurrences {seen items : List String} {s : String} :
    s ∈ firstOccurrences seen items ↔ s ∈ items ∧ s ∉ seen := by
  induction items generalizing seen with
  | nil => simp [firstOccurrences]
  | cons item items ih =>
      rw [firstOccurrences]
      by_cases hseen : item ∈ seen
      · have hne : s ∉ seen → s ≠ item := fun hs h => hs (h ▸ hseen)
        rw [if_pos hseen, ih, List.mem_cons]
        exact and_congr_left fun hs => (or_iff_right (hne hs)).symm
      · rw [if_neg hseen, List.mem_cons, ih, List.mem_cons, List.mem_cons]
        by_cases hs : s = item
        · simp [hs, hseen]
        · simp [hs]

theorem nodup_firstOccurrences (seen items : List String) :
    (firstOccurrences seen items).Nodup := by
  induction items generalizing seen with
  | nil => exact List.nodup_nil
  | cons item items ih =>
      rw [firstOccurrences]
      split
      · exact ih seen
      · refine List.nodup_cons.2 ⟨fun hmem => ?_, ih (item :: seen)⟩
        exact (mem_firstOccurrences.1 hmem).2 (List.mem_cons_self ..)

/-- Of what has been seen it matters only what is in it. -/
theorem firstOccurrences_congr {seen seen' : List String} (h : ∀ s, s ∈ seen ↔ s ∈ seen')
    (items : List String) : firstOccurrences seen items = firstOccurrences seen' items := by
  induction items generalizing seen seen' with
  | nil => rfl
  | cons item items ih =>
      have hnext : ∀ s, s ∈ item :: seen ↔ s ∈ item :: seen' := fun s => by
        rw [List.mem_cons, List.mem_cons, h]
      rw [firstOccurrences, firstOccurrences, ih h, ih hnext]
      exact if_congr (h item) rfl rfl

theorem firstOccurrences_append (seen items rest : List String) :
    firstOccurrences seen (items ++ rest) =
      firstOccurrences seen items ++ firstOccurrences (items ++ seen) rest := by
  induction items generalizing seen with
  | nil => rfl
  | cons item items ih =>
      rw [List.cons_append, firstOccurrences, firstOccurrences, ih, ih]
      by_cases hseen : item ∈ seen
      · have hmem : ∀ s, s ∈ items ++ seen ↔ s ∈ item :: items ++ seen := fun s => by
          by_cases hs : s = item
          · simp [hs, hseen]
          · simp [hs]
        rw [if_pos hseen, if_pos hseen, firstOccurrences_congr hmem]
      · have hmem : ∀ s, s ∈ items ++ item :: seen ↔ s ∈ item :: items ++ seen := fun s => by
          simp [or_left_comm]
        rw [if_neg hseen, if_neg hseen, firstOccurrences_congr hmem]
        rfl

theorem firstOccurrences_eq_nil {seen items : List String} (h : ∀ s ∈ items, s ∈ seen) :
    firstOccurrences seen items = [] :=
  List.eq_nil_iff_forall_not_mem.2 fun s hs =>
    (mem_firstOccurrences.1 hs).2 (h s (mem_firstOccurrences.1 hs).1)

theorem firstOccurrences_append_append {before extra : List String} (h : ∀ s ∈ extra, s ∈ before)
    (after : List String) :
    firstOccurrences [] (before ++ extra ++ after) = firstOccurrences [] (before ++ after) := by
  have hextra : firstOccurrences (before ++ []) extra = [] :=
    firstOccurrences_eq_nil fun s hs => List.mem_append_left _ (h s hs)
  have hseen : ∀ s, s ∈ before ++ extra ++ [] ↔ s ∈ before ++ [] := fun s => by
    simpa using h s
  rw [firstOccurrences_append, firstOccurrences_append, hextra, List.append_nil,
    firstOccurrences_congr hseen, ← firstOccurrences_append]

theorem idxOf_firstOccurrences_lt_iff {seen items : List String} {s t : String} (hs : s ∉ seen)
    (ht : t ∉ seen) :
    (firstOccurrences seen items).idxOf s < (firstOccurrences seen items).idxOf t ↔
      items.idxOf s < items.idxOf t := by
  induction items generalizing seen with
  | nil => rfl
  | cons item items ih =>
      rw [firstOccurrences]
      by_cases hseen : item ∈ seen
      · -- the item is dropped, and neither of the two is it
        have hsne : item ≠ s := fun h => hs (h ▸ hseen)
        have htne : item ≠ t := fun h => ht (h ▸ hseen)
        rw [if_pos hseen, ih hs ht, List.idxOf_cons_ne _ hsne, List.idxOf_cons_ne _ htne,
          Nat.succ_lt_succ_iff]
      · rw [if_neg hseen]
        by_cases hst : item = t
        · rw [hst, List.idxOf_cons_self, List.idxOf_cons_self]
          exact iff_of_false (Nat.not_lt_zero _) (Nat.not_lt_zero _)
        · by_cases hss : item = s
          · rw [hss, List.idxOf_cons_self, List.idxOf_cons_self, List.idxOf_cons_ne _ (hss ▸ hst),
              List.idxOf_cons_ne _ (hss ▸ hst)]
            exact iff_of_true (Nat.succ_pos _) (Nat.succ_pos _)
          · have hs' : s ∉ item :: seen := fun h => (List.mem_cons.1 h).elim (hss ·.symm) hs
            have ht' : t ∉ item :: seen := fun h => (List.mem_cons.1 h).elim (hst ·.symm) ht
            rw [List.idxOf_cons_ne _ hss, List.idxOf_cons_ne _ hst, List.idxOf_cons_ne _ hss,
              List.idxOf_cons_ne _ hst, Nat.succ_lt_succ_iff, Nat.succ_lt_succ_iff, ih hs' ht']

/-! ## Ports -/

theorem mem_collect {app added forwarded : List Port} {s : String} :
    s ∈ collect app added forwarded ↔
      ∃ port, (port ∈ app ∨ port ∈ added ∨ port ∈ forwarded) ∧ port.mapping = s := by
  rw [collect, mem_firstOccurrences, List.mem_map]
  simp

/-- The collected ports are the mappings of all ports, each once and in the order of their first
occurrences. Ports that are put in behind others with their mappings change nothing, and ports that
are put in at the end only add to the ports that are there. -/
theorem collect_firstOccurrences (app added forwarded : List Port) :
    (collect app added forwarded).Nodup ∧
      (∀ s, s ∈ collect app added forwarded ↔
        ∃ port, (port ∈ app ∨ port ∈ added ∨ port ∈ forwarded) ∧ port.mapping = s) ∧
      (∀ s t, (collect app added forwarded).idxOf s < (collect app added forwarded).idxOf t ↔
        ((app ++ added ++ forwarded).map mapping).idxOf s <
          ((app ++ added ++ forwarded).map mapping).idxOf t) ∧
      (∀ before extra after app' added' forwarded', app ++ added ++ forwarded = before ++ after →
        app' ++ added' ++ forwarded' = before ++ extra ++ after →
        (∀ port ∈ extra, port.mapping ∈ before.map mapping) →
          collect app' added' forwarded' = collect app added forwarded) ∧
      ∀ extra app' added' forwarded',
        app' ++ added' ++ forwarded' = app ++ added ++ forwarded ++ extra →
          collect app added forwarded <+: collect app' added' forwarded' := by
  refine ⟨nodup_firstOccurrences _ _, fun s => mem_collect, fun s t => ?_, ?_, ?_⟩
  · exact idxOf_firstOccurrences_lt_iff List.not_mem_nil List.not_mem_nil
  · intro before extra after app' added' forwarded' hall hall' hextra
    rw [collect, collect, hall, hall', List.map_append, List.map_append, List.map_append]
    exact firstOccurrences_append_append (by simpa using hextra) _
  · intro extra app' added' forwarded' hall'
    have hmap : (app' ++ added' ++ forwarded').map mapping =
        (app ++ added ++ forwarded).map mapping ++ extra.map mapping := by
      rw [hall', List.map_append]
    rw [collect, collect, hmap, firstOccurrences_append]
    exact List.prefix_append _ _

example : collect [.number 5000] [.text "9000:80"] [.number 8080, .text "5000:5000"] =
    ["5000:5000", "9000:80", "8080:8080"] := by decide

end Devcontainer.Port
