import Devcontainer.Path
import Devcontainer.Proofs.Text.Split

/-!
# Paths and the names in them

No name contains the slash that stands between two of them, so the absolute path through a list of
names tells which names these are.
-/

namespace Devcontainer

namespace Path

open Text

theorem not_mem_of_mem_parts {path part : String} (h : part ∈ parts path) : '/' ∉ part.toList := by
  obtain ⟨chars, hchars, rfl⟩ := List.mem_map.1 h
  rw [String.toList_ofList]
  exact not_mem_of_mem_splitOn hchars

theorem toList_ofNames (names : List String) :
    (ofNames names).toList = '/' :: List.intercalate ['/'] (names.map String.toList) := by
  rw [ofNames, String.toList_append, String.toList_intercalate]
  rfl

theorem isAbsolute_ofNames (names : List String) : isAbsolute (ofNames names) = true := by
  simp [isAbsolute, toList_ofNames]

theorem join_ofNames (dir : String) (names : List String) :
    join dir (ofNames names) = ofNames names := by
  rw [join, if_pos (isAbsolute_ofNames names)]

theorem parts_ofNames {names : List String} (hne : names ≠ [])
    (h : ∀ name ∈ names, '/' ∉ name.toList) : parts (ofNames names) = "" :: names := by
  have hsplit : splitOn '/' (List.intercalate ['/'] (names.map String.toList)) =
      names.map String.toList := by
    apply splitOn_intercalate
    · simpa using hne
    · simpa using h
  rw [parts, toList_ofNames, ← List.nil_append ('/' :: _), splitOn_append_cons List.not_mem_nil,
    hsplit]
  simp [Function.comp_def]

theorem parts_ofNames_nil : parts (ofNames []) = ["", ""] := rfl

/-- Names that are not empty and have no slash in them can be read off their path. -/
theorem ofNames_inj {a b : List String} (ha : ∀ name ∈ a, name ≠ "" ∧ '/' ∉ name.toList)
    (hb : ∀ name ∈ b, name ≠ "" ∧ '/' ∉ name.toList) (h : ofNames a = ofNames b) : a = b := by
  have hparts : ∀ {names : List String}, (∀ name ∈ names, name ≠ "" ∧ '/' ∉ name.toList) →
      names = (parts (ofNames names)).filter (· ≠ "") := by
    intro names hnames
    cases names with
    | nil => rfl
    | cons name names =>
        rw [parts_ofNames (by simp) fun n hn => (hnames n hn).2]
        have hkeep : (name :: names).filter (· ≠ "") = name :: names :=
          List.filter_eq_self.2 fun n hn => by simpa using (hnames n hn).1
        rw [List.filter_cons, if_neg (by simp), hkeep]
  rw [hparts ha, h, ← hparts hb]

end Path

end Devcontainer
