import Devcontainer.Text.Basic
import Mathlib.Data.List.Basic

/-!
# Splitting what was joined

A separator keeps the texts on its two sides apart, so a text that has been joined from parts is
split where the parts are split. Splitting undoes joining when no part holds the separator.
-/

namespace Devcontainer.Text

theorem splitOn_of_not_mem {sep : Char} {text : List Char} (h : sep ∉ text) :
    splitOn sep text = [text] := by
  induction text with
  | nil => rfl
  | cons c rest ih =>
      have hc : c ≠ sep := fun hc => h (by simp [hc])
      have hrest : sep ∉ rest := fun hrest => h (List.mem_cons_of_mem _ hrest)
      rw [splitOn, if_neg hc, ih hrest]

theorem splitOn_append_sep (sep : Char) (text rest : List Char) :
    splitOn sep (text ++ sep :: rest) = splitOn sep text ++ splitOn sep rest := by
  induction text with
  | nil => exact if_pos rfl
  | cons c text ih =>
      rw [List.cons_append, splitOn, splitOn]
      by_cases hc : c = sep
      · rw [if_pos hc, if_pos hc, ih]
        rfl
      · obtain ⟨part, parts, hparts⟩ := List.exists_cons_of_ne_nil (splitOn_ne_nil sep text)
        rw [if_neg hc, if_neg hc, ih, hparts]
        rfl

theorem splitOn_append_cons {sep : Char} {text : List Char} (h : sep ∉ text) (rest : List Char) :
    splitOn sep (text ++ sep :: rest) = text :: splitOn sep rest := by
  rw [splitOn_append_sep, splitOn_of_not_mem h, List.singleton_append]

theorem splitOn_intercalate_eq_flatMap (sep : Char) {parts : List (List Char)} (h : parts ≠ []) :
    splitOn sep (List.intercalate [sep] parts) = parts.flatMap (splitOn sep) := by
  induction parts with
  | nil => exact absurd rfl h
  | cons part parts ih =>
      rw [List.flatMap_cons]
      cases parts with
      | nil => rw [List.intercalate_singleton, List.flatMap_nil, List.append_nil]
      | cons next parts =>
          rw [List.intercalate_cons_cons, List.append_assoc, List.singleton_append,
            splitOn_append_sep, ih (List.cons_ne_nil _ _)]

theorem splitOn_intercalate {sep : Char} {parts : List (List Char)} (hne : parts ≠ [])
    (h : ∀ part ∈ parts, sep ∉ part) : splitOn sep (List.intercalate [sep] parts) = parts := by
  rw [splitOn_intercalate_eq_flatMap sep hne,
    List.flatMap_congr fun part hpart => splitOn_of_not_mem (h part hpart)]
  exact List.flatMap_singleton' parts

theorem not_mem_of_mem_splitOn {sep : Char} {text part : List Char} (h : part ∈ splitOn sep text) :
    sep ∉ part := by
  induction text generalizing part with
  | nil =>
      obtain rfl := List.mem_singleton.1 h
      exact List.not_mem_nil
  | cons c rest ih =>
      rw [splitOn] at h
      split at h
      next =>
        rcases List.mem_cons.1 h with rfl | h
        · exact List.not_mem_nil
        · exact ih h
      next hc =>
        split at h
        next hnil => exact absurd hnil (splitOn_ne_nil sep rest)
        next first parts hparts =>
          rcases List.mem_cons.1 h with rfl | h
          · have hfirst : sep ∉ first := ih (hparts ▸ List.mem_cons_self ..)
            simp [hfirst, Ne.symm hc]
          · exact ih (hparts ▸ List.mem_cons_of_mem _ h)

theorem length_splitOn (sep : Char) (text : List Char) :
    (splitOn sep text).length = text.count sep + 1 := by
  induction text with
  | nil => rfl
  | cons c rest ih =>
      rw [splitOn]
      by_cases hc : c = sep
      · rw [if_pos hc, List.length_cons, ih, hc, List.count_cons_self]
      · obtain ⟨part, parts, hparts⟩ := List.exists_cons_of_ne_nil (splitOn_ne_nil sep rest)
        rw [if_neg hc, List.count_cons_of_ne hc, ← ih, hparts]
        rfl

theorem splitOn_append_of_not_mem {sep : Char} {head : List Char} (h : sep ∉ head)
    (text : List Char) : ∃ part, splitOn sep (head ++ text) =
      (head ++ part) :: (splitOn sep text).tail := by
  induction head with
  | nil =>
      obtain ⟨part, parts, hparts⟩ := List.exists_cons_of_ne_nil (splitOn_ne_nil sep text)
      exact ⟨part, by rw [List.nil_append, List.nil_append, hparts, List.tail_cons]⟩
  | cons c head ih =>
      obtain ⟨hc, hhead⟩ := not_or.1 (mt List.mem_cons.2 h)
      obtain ⟨part, hparts⟩ := ih hhead
      refine ⟨part, ?_⟩
      rw [List.cons_append, splitOn, if_neg (Ne.symm hc), hparts]
      rfl

/-- What stands in front of every separator begins the first part. -/
theorem exists_append_mem_splitOn {sep : Char} {head : List Char} (h : sep ∉ head)
    (rest : List Char) : ∃ value, head ++ value ∈ splitOn sep (head ++ rest) := by
  obtain ⟨part, hparts⟩ := splitOn_append_of_not_mem h rest
  exact ⟨part, hparts ▸ List.mem_cons_self ..⟩

theorem cut_append {sep : Char} {before : List Char} (h : sep ∉ before) (after : List Char) :
    cut sep (before ++ sep :: after) = some (before, after) := by
  induction before with
  | nil => exact if_pos rfl
  | cons c before ih =>
      obtain ⟨hc, hbefore⟩ := not_or.1 (mt List.mem_cons.2 h)
      rw [List.cons_append, cut, if_neg (Ne.symm hc), ih hbefore, Option.map_some]

end Devcontainer.Text
