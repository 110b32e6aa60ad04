import Devcontainer.Json.Basic

/-!
# Merging JSON

Two objects merge key by key, at every depth; in any other pair the overlay replaces the base. The
keys of the base keep their order and the new keys of the overlay follow in theirs.
-/

namespace Devcontainer.Json

mutual

def merge : (base overlay : Json) → Json
  | .object base, .object overlay => .object (mergeMembers base overlay)
  | _, overlay => overlay

def mergeMembers (base : List (String × Json)) :
    (overlay : List (String × Json)) → List (String × Json)
  | [] => base
  | (key, value) :: overlay =>
    mergeMembers
      (Entries.put key
        (match base.lookup key with
          | some existing => merge existing value
          | none => value)
        base)
      overlay

end

theorem merge_of_not_object {base overlay : Json} (h : base.kind ≠ .object ∨ overlay.kind ≠ .object) :
    merge base overlay = overlay := by
  cases base <;> cases overlay <;> simp_all [merge, kind]

end Devcontainer.Json
