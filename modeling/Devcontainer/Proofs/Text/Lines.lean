import Devcontainer.Proofs.Text.Split

/-!
# Values in lines

Values that are written one a line are read back as the lines of the text, as long as none of them
has a line feed. Each line feed in a value divides it, so the text has one line more.
-/

namespace Devcontainer.Text

def lines (text : String) : List String :=
  (splitOn '\n' text.toList).map String.ofList

def lineFeeds (text : String) : Nat :=
  text.toList.count '\n'

def OneLine (text : String) : Prop :=
  '\n' ∉ text.toList

instance (text : String) : Decidable (OneLine text) :=
  inferInstanceAs (Decidable (¬ _))

@[simp] theorem oneLine_append {text rest : String} :
    OneLine (text ++ rest) ↔ OneLine text ∧ OneLine rest := by
  simp [OneLine, not_or]

theorem oneLine_intercalate {sep : String} (hsep : OneLine sep) {parts : List String} :
    OneLine (String.intercalate sep parts) ↔ ∀ part ∈ parts, OneLine part := by
  rw [OneLine, String.toList_intercalate]
  induction parts with
  | nil => simp
  | cons part parts ih =>
      cases parts with
      | nil => simp [OneLine]
      | cons next parts =>
          rw [List.map_cons, List.map_cons, List.intercalate_cons_cons, ← List.map_cons,
            List.mem_append, List.mem_append, not_or, not_or, ih]
          exact (and_congr_left' (and_iff_left hsep)).trans (List.forall_mem_cons (p := OneLine)).symm

theorem oneLine_of_mem_lines {text line : String} (h : line ∈ lines text) : OneLine line := by
  obtain ⟨part, hpart, rfl⟩ := List.mem_map.1 h
  rw [OneLine, String.toList_ofList]
  exact not_mem_of_mem_splitOn hpart

theorem lines_of_oneLine {text : String} (h : OneLine text) : lines text = [text] := by
  rw [lines, splitOn_of_not_mem h, List.map_singleton, String.ofList_toList]

theorem length_lines (text : String) : (lines text).length = lineFeeds text + 1 := by
  rw [lines, List.length_map, length_splitOn, lineFeeds]

/-- A text with one value a line has the lines of the values. -/
theorem lines_intercalate {values : List String} (h : values ≠ []) :
    lines (String.intercalate "\n" values) = values.flatMap lines := by
  have hne : values.map String.toList ≠ [] := by simpa using h
  have htext : (String.intercalate "\n" values).toList =
      List.intercalate ['\n'] (values.map String.toList) := String.toList_intercalate ..
  rw [lines, htext, splitOn_intercalate_eq_flatMap '\n' hne, List.flatMap_map, List.map_flatMap]
  rfl

theorem flatMap_lines_eq_self_iff {values : List String} :
    values.flatMap lines = values ↔ ∀ value ∈ values, OneLine value := by
  constructor
  · intro h value hvalue
    rw [← h] at hvalue
    obtain ⟨text, -, hline⟩ := List.mem_flatMap.1 hvalue
    exact oneLine_of_mem_lines hline
  · intro h
    rw [List.flatMap_congr fun value hvalue => lines_of_oneLine (h value hvalue)]
    exact List.flatMap_singleton' values

theorem length_flatMap_lines (values : List String) :
    (values.flatMap lines).length = values.length + lineFeeds (String.join values) := by
  induction values with
  | nil => rfl
  | cons value values ih =>
      have hfeeds : lineFeeds (String.join (value :: values)) =
          lineFeeds value + lineFeeds (String.join values) := by
        simp [lineFeeds, String.toList_join]
      rw [List.flatMap_cons, List.length_append, ih, length_lines, List.length_cons, hfeeds]
      omega

end Devcontainer.Text
