import Devcontainer.Mount.Text
import Devcontainer.Proofs.Text.Blank
import Devcontainer.Proofs.Text.Split

/-!
# Options in the text of a mount

The text of a mount is cut at its commas, those inside a source or a target included. Each option
still begins one of the parts, so what an option starts with is found again, whatever stands in it.
-/

namespace Devcontainer

namespace Mount

open Text

theorem options_ne_nil (m : Mount) : m.options ≠ [] := by
  simp [options]

theorem toList_canonical (m : Mount) :
    m.canonical.toList = List.intercalate [','] (m.options.map String.toList) := by
  rw [canonical, String.toList_intercalate]
  rfl

/-- The text of a mount has a part that starts as one of its options does. -/
theorem exists_part_of_mem_options {m : Mount} {key value : String}
    (hoption : key ++ value ∈ m.options) (hne : key.toList ≠ []) (hcomma : ',' ∉ key.toList)
    (hblank : ∀ c ∈ key.toList, isBlank c = false) :
    ∃ part ∈ splitOn ',' m.canonical.toList, key.toList <+: trim part := by
  obtain ⟨rest, hrest⟩ := exists_append_mem_splitOn hcomma value.toList
  refine ⟨key.toList ++ rest, ?_, prefix_trim_append hne hblank rest⟩
  rw [toList_canonical, splitOn_intercalate_eq_flatMap ',' (by simpa using m.options_ne_nil)]
  refine List.mem_flatMap.2 ⟨_, List.mem_map_of_mem hoption, ?_⟩
  rwa [String.toList_append]

theorem kind_mem_options (m : Mount) : "type=" ++ m.kind.name ∈ m.options := by
  simp [options]

theorem target_mem_options (m : Mount) : "target=" ++ m.target ∈ m.options := by
  simp [options]

end Mount

end Devcontainer
