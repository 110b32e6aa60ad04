import Devcontainer.Text.Basic
import Mathlib.Data.List.Basic

/-!
# Trimmed texts

A text is trimmed when it neither begins nor ends with a blank. Trimming takes away at the ends only,
and what it leaves is trimmed.
-/

namespace Devcontainer.Text

theorem trimStart_suffix (text : List Char) : trimStart text <:+ text :=
  List.dropWhile_suffix isBlank

theorem trimEnd_eq_reverse (text : List Char) : trimEnd text = (trimStart text.reverse).reverse :=
  rfl

theorem trimEnd_prefix_self (text : List Char) : trimEnd text <+: text := by
  have h := List.reverse_prefix.2 (trimStart_suffix text.reverse)
  rwa [List.reverse_reverse] at h

theorem trim_infix_self (text : List Char) : trim text <:+: text :=
  (trimEnd_prefix_self (trimStart text)).isInfix.trans (trimStart_suffix text).isInfix

theorem not_mem_trim {c : Char} {text : List Char} (h : c ∉ text) : c ∉ trim text :=
  fun hmem => h ((trim_infix_self text).subset hmem)

theorem isBlank_head?_trimStart (text : List Char) :
    ∀ c ∈ (trimStart text).head?, isBlank c = false := by
  intro c hc
  have h := List.head?_dropWhile_not isBlank text
  rw [show text.dropWhile isBlank = trimStart text from rfl, Option.mem_def.1 hc] at h
  exact h

theorem isBlank_getLast?_trimEnd (text : List Char) :
    ∀ c ∈ (trimEnd text).getLast?, isBlank c = false := by
  rw [trimEnd_eq_reverse, List.getLast?_reverse]
  exact isBlank_head?_trimStart text.reverse

theorem trimStart_eq_self_iff {text : List Char} :
    trimStart text = text ↔ ∀ c ∈ text.head?, isBlank c = false := by
  constructor
  · intro h
    rw [← h]
    exact isBlank_head?_trimStart text
  · intro h
    cases text with
    | nil => rfl
    | cons c rest => exact List.dropWhile_cons_of_neg (by simp [h c rfl])

theorem trimEnd_eq_self_iff {text : List Char} :
    trimEnd text = text ↔ ∀ c ∈ text.getLast?, isBlank c = false := by
  rw [trimEnd_eq_reverse, List.reverse_eq_iff, trimStart_eq_self_iff, List.head?_reverse]

theorem head?_trimEnd {text : List Char} : ∀ c ∈ (trimEnd text).head?, c ∈ text.head? := by
  intro c hc
  obtain ⟨rest, hrest⟩ := trimEnd_prefix_self text
  rw [← hrest, List.head?_append, Option.mem_def.1 hc]
  rfl

theorem isBlank_head?_trim (text : List Char) : ∀ c ∈ (trim text).head?, isBlank c = false :=
  fun c hc => isBlank_head?_trimStart text c (head?_trimEnd c hc)

theorem trim_eq_self_iff {text : List Char} : trim text = text ↔
    (∀ c ∈ text.head?, isBlank c = false) ∧ ∀ c ∈ text.getLast?, isBlank c = false := by
  constructor
  · intro h
    rw [← h]
    exact ⟨isBlank_head?_trim text, isBlank_getLast?_trimEnd (trimStart text)⟩
  · rintro ⟨hhead, hlast⟩
    rw [trim, trimStart_eq_self_iff.2 hhead, trimEnd_eq_self_iff.2 hlast]

theorem trim_trim (text : List Char) : trim (trim text) = trim text :=
  trim_eq_self_iff.2 ⟨isBlank_head?_trim text, isBlank_getLast?_trimEnd (trimStart text)⟩

theorem trim_of_any_eq_false {text : List Char} (h : text.any isBlank = false) :
    trim text = text := by
  have hall : ∀ c ∈ text, isBlank c = false := fun c hc =>
    Bool.eq_false_iff.2 (List.any_eq_false.1 h c hc)
  exact trim_eq_self_iff.2 ⟨fun c hc => hall c (List.mem_of_mem_head? hc),
    fun c hc => hall c (List.mem_of_mem_getLast? hc)⟩

/-- Characters that are no blanks stay in front of a trimmed text. -/
theorem prefix_trim_append {head : List Char} (hne : head ≠ [])
    (h : ∀ c ∈ head, isBlank c = false) (rest : List Char) : head <+: trim (head ++ rest) := by
  have hstart : trimStart (head ++ rest) = head ++ rest := by
    obtain ⟨c, tail, rfl⟩ := List.exists_cons_of_ne_nil hne
    exact List.dropWhile_cons_of_neg (by simp [h c (List.mem_cons_self ..)])
  have hreverse : head.reverse.dropWhile isBlank = head.reverse := by
    obtain ⟨c, tail, htail⟩ := List.exists_cons_of_ne_nil (List.reverse_ne_nil_iff.2 hne)
    have hc : c ∈ head := List.mem_reverse.1 (htail ▸ List.mem_cons_self ..)
    rw [htail]
    exact List.dropWhile_cons_of_neg (by simp [h c hc])
  rw [trim, hstart, trimEnd, List.reverse_append, List.dropWhile_append, hreverse]
  split
  · simp
  · rw [List.reverse_append, List.reverse_reverse]
    exact List.prefix_append _ _

end Devcontainer.Text
