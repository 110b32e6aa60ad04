import Devcontainer.Proofs.Document
import Devcontainer.Proofs.Document.Numeral

/-!
# Values that a document can hold

Not every value can come out of a document: the keys of its objects are distinct and its numbers are
whole numbers of 64 bits or finite doubles. Every value that is read from a document is of this kind.
-/

namespace Devcontainer

namespace Json

mutual

def numbers : Json → List Number
  | .number n => [n]
  | .array items => numbersOfItems items
  | .object members => numbersOfMembers members
  | .null | .bool _ | .string _ => []

def numbersOfItems : List Json → List Number
  | [] => []
  | item :: items => item.numbers ++ numbersOfItems items

def numbersOfMembers : List (String × Json) → List Number
  | [] => []
  | (_, value) :: members => value.numbers ++ numbersOfMembers members

end

/-- A value that a document can hold. -/
structure Legible (v : Json) : Prop where
  keys : v.DistinctKeys
  numbers : ∀ n ∈ v.numbers, n.Readable

theorem legible_null : Legible .null := ⟨trivial, nofun⟩

theorem legible_bool (b : Bool) : Legible (.bool b) := ⟨trivial, nofun⟩

theorem legible_string (s : String) : Legible (.string s) := ⟨trivial, nofun⟩

theorem legible_number_iff {n : Number} : Legible (.number n) ↔ n.Readable :=
  ⟨fun h => h.numbers n (List.mem_singleton_self n),
    fun h => ⟨trivial, fun _ hn => List.mem_singleton.1 hn ▸ h⟩⟩

theorem numbersOfItems_eq (items : List Json) : numbersOfItems items = items.flatMap numbers := by
  induction items with
  | nil => rfl
  | cons item items ih => rw [numbersOfItems, ih, List.flatMap_cons]

theorem numbersOfMembers_eq (members : List (String × Json)) :
    numbersOfMembers members = members.flatMap fun e => e.2.numbers := by
  induction members with
  | nil => rfl
  | cons e members ih => rw [numbersOfMembers, ih, List.flatMap_cons]

theorem legible_array_iff {items : List Json} :
    Legible (.array items) ↔ ∀ item ∈ items, item.Legible := by
  constructor
  · intro h item hitem
    refine ⟨distinctKeysItems_iff.1 h.keys item hitem, fun n hn => h.numbers n ?_⟩
    rw [numbers, numbersOfItems_eq]
    exact List.mem_flatMap.2 ⟨item, hitem, hn⟩
  · intro h
    refine ⟨distinctKeysItems_iff.2 fun item hitem => (h item hitem).keys, fun n hn => ?_⟩
    rw [numbers, numbersOfItems_eq] at hn
    obtain ⟨item, hitem, hn⟩ := List.mem_flatMap.1 hn
    exact (h item hitem).numbers n hn

theorem legible_object_iff {members : List (String × Json)} :
    Legible (.object members) ↔
      (members.map Prod.fst).Nodup ∧ ∀ e ∈ members, e.2.Legible := by
  constructor
  · intro h
    refine ⟨h.keys.1, fun e he => ⟨distinctKeysMembers_iff.1 h.keys.2 e he, fun n hn => ?_⟩⟩
    refine h.numbers n ?_
    rw [numbers, numbersOfMembers_eq]
    exact List.mem_flatMap.2 ⟨e, he, hn⟩
  · rintro ⟨hkeys, h⟩
    refine ⟨⟨hkeys, distinctKeysMembers_iff.2 fun e he => (h e he).keys⟩, fun n hn => ?_⟩
    rw [numbers, numbersOfMembers_eq] at hn
    obtain ⟨e, he, hn⟩ := List.mem_flatMap.1 hn
    exact (h e he).numbers n hn

theorem composed_legible : Composed Legible where
  null := legible_null
  bool := legible_bool
  string := legible_string
  emptyArray := legible_array_iff.2 nofun
  concat hitems hv := by
    rw [legible_array_iff] at hitems ⊢
    exact List.forall_mem_append.2 ⟨hitems, fun v h => List.mem_singleton.1 h ▸ hv⟩
  emptyObject := legible_object_iff.2 ⟨List.nodup_nil, nofun⟩
  put hmembers hv := by
    rw [legible_object_iff] at hmembers ⊢
    refine ⟨Entries.nodup_put _ _ hmembers.1, fun e he => ?_⟩
    rcases Entries.mem_put he with rfl | he
    · exact hv
    · exact hmembers.2 e he

end Json

namespace Document

theorem legible_of_read? {text : String} {v : Json} (h : read? text = some v) : v.Legible := by
  refine holds_of_read? Json.composed_legible (fun text v width hnumber => ?_) h
  rcases readable_of_numberAt hnumber with rfl | ⟨n, rfl, hn⟩
  · exact Json.legible_null
  · exact Json.legible_number_iff.2 hn

end Document

end Devcontainer
