import Devcontainer.Template
import Devcontainer.Proofs.OrderedMap
import Devcontainer.Proofs.SortedMap
import Mathlib.Data.List.Basic

/-!
# What is reported

Names that are missing are listed in the order in which they are first seen, each of them once. What
has been put in is told by name, as it was put in last.
-/

namespace Devcontainer

theorem length_filter_lt_cons (p : String → Bool) (name : String) (names : List String) :
    (names.filter p).length < (name :: names).length :=
  Nat.lt_succ_of_le (List.length_filter_le p names)

theorem filter_eraseDups (p : String → Bool) (names : List String) :
    names.eraseDups.filter p = (names.filter p).eraseDups := by
  match names with
  | [] => rfl
  | name :: names =>
      have hshort := length_filter_lt_cons (fun other => !other == name) name names
      have hrest := filter_eraseDups p (names.filter fun other => !other == name)
      rw [List.eraseDups_cons, List.filter_cons, List.filter_cons, hrest, List.filter_filter]
      split
      next =>
        rw [List.eraseDups_cons, List.filter_filter]
        simp only [Bool.and_comm]
      next hname =>
        have hsame : names.filter (fun other => p other && !other == name) = names.filter p := by
          apply List.filter_congr
          intro other _
          by_cases hother : other = name <;> simp [hother, hname]
        rw [hsame]
termination_by names.length
decreasing_by exact hshort

theorem eraseDups_eraseDups (names : List String) :
    names.eraseDups.eraseDups = names.eraseDups := by
  match names with
  | [] => rfl
  | name :: names =>
      have hshort := length_filter_lt_cons (fun other => !other == name) name names
      have hrest := eraseDups_eraseDups (names.filter fun other => !other == name)
      rw [List.eraseDups_cons, List.eraseDups_cons, filter_eraseDups, List.filter_filter]
      simp only [Bool.and_self]
      rw [hrest]
termination_by names.length
decreasing_by exact hshort

theorem nodup_eraseDups (names : List String) : names.eraseDups.Nodup := by
  match names with
  | [] => exact List.nodup_nil
  | name :: names =>
      have hshort := length_filter_lt_cons (fun other => !other == name) name names
      have hrest := nodup_eraseDups (names.filter fun other => !other == name)
      rw [List.eraseDups_cons]
      exact List.nodup_cons.2 ⟨by simp [List.mem_eraseDups], hrest⟩
termination_by names.length
decreasing_by exact hshort

theorem perm_eraseDups {names names' : List String} (h : names.Perm names') :
    names.eraseDups.Perm names'.eraseDups := by
  rw [List.perm_ext_iff_of_nodup (nodup_eraseDups names) (nodup_eraseDups names')]
  intro name
  rw [List.mem_eraseDups, List.mem_eraseDups, h.mem_iff]

namespace Report

theorem missing_add (r : Report) (e : Expansion) :
    (r.add e).missing = e.missing.foldl addMissing r.missing := rfl

theorem foldl_addMissing (listed names : List String) :
    names.foldl addMissing listed = listed ++ (names.filter (· ∉ listed)).eraseDups :=
  foldl_append_new listed names

theorem mem_foldl_addMissing {listed names : List String} {name : String} :
    name ∈ names.foldl addMissing listed ↔ name ∈ listed ∨ name ∈ names := by
  rw [foldl_addMissing, List.mem_append, List.mem_eraseDups, List.mem_filter, decide_eq_true_iff]
  by_cases h : name ∈ listed <;> simp [h]

/-- What a template adds to a report is what it would say in a report of its own. -/
theorem missing_add_eq (r : Report) (e : Expansion) :
    (r.add e).missing = (empty.add e).missing.foldl addMissing r.missing := by
  have halone : (empty.add e).missing = e.missing.eraseDups := by
    rw [missing_add, foldl_addMissing]
    simp [empty]
  rw [halone, missing_add, foldl_addMissing, foldl_addMissing, filter_eraseDups,
    eraseDups_eraseDups]

theorem missing_ofTemplates (c : Context) (templates : List String) :
    (ofTemplates c templates).missing = (templates.flatMap fun template =>
      (empty.add (Template.expand c template)).missing).eraseDups := by
  have hfoldl : ∀ r : Report,
      (templates.foldl (fun r template => r.add (Template.expand c template)) r).missing =
        (templates.flatMap fun template =>
          (empty.add (Template.expand c template)).missing).foldl addMissing r.missing := by
    induction templates with
    | nil => exact fun r => rfl
    | cons template templates ih =>
        intro r
        rw [List.foldl_cons, ih, List.flatMap_cons, List.foldl_append, ← missing_add_eq]
  rw [ofTemplates, hfoldl, foldl_addMissing]
  simp [empty]

theorem mem_missing_ofTemplates {c : Context} {templates : List String} {name : String} :
    name ∈ (ofTemplates c templates).missing ↔
      ∃ template ∈ templates, name ∈ (Template.expand c template).missing := by
  have halone : ∀ e : Expansion, name ∈ (empty.add e).missing ↔ name ∈ e.missing := by
    intro e
    rw [missing_add, mem_foldl_addMissing]
    simp [empty]
  rw [missing_ofTemplates, List.mem_eraseDups, List.mem_flatMap]
  simp only [halone]

theorem replacements_ofTemplates (c : Context) (templates : List String) :
    (ofTemplates c templates).replacements = SortedMap.empty.insertAll
      (templates.flatMap fun template => (Template.expand c template).replacements) := by
  have hfoldl : ∀ r : Report,
      (templates.foldl (fun r template => r.add (Template.expand c template)) r).replacements =
        r.replacements.insertAll
          (templates.flatMap fun template => (Template.expand c template).replacements) := by
    induction templates with
    | nil => exact fun r => rfl
    | cons template templates ih =>
        intro r
        rw [List.foldl_cons, ih, List.flatMap_cons, SortedMap.insertAll_append]
        rfl
  exact hfoldl empty

end Report

end Devcontainer
