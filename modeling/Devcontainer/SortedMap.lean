/-!
# Maps in order of their keys

Keys stand in increasing order of their characters, so two maps with the same values are the same
map, whatever the order in which they were filled.
-/

namespace Devcontainer

variable {α : Type}

namespace SortedEntries

def put (key : String) (value : α) : List (String × α) → List (String × α)
  | [] => [(key, value)]
  | (k, v) :: rest =>
    if key < k then (key, value) :: (k, v) :: rest
    else if key = k then (key, value) :: rest
    else (k, v) :: put key value rest

theorem mem_put {key : String} {value : α} {e : String × α} {entries : List (String × α)}
    (h : e ∈ put key value entries) : e = (key, value) ∨ e ∈ entries := by
  induction entries with
  | nil => exact Or.inl (by simpa [put] using h)
  | cons e' rest ih =>
      obtain ⟨k, v⟩ := e'
      rw [put] at h
      split at h
      · simpa using h
      · split at h
        · rcases List.mem_cons.1 h with rfl | h
          · exact Or.inl rfl
          · exact Or.inr (List.mem_cons_of_mem _ h)
        · rcases List.mem_cons.1 h with rfl | h
          · exact Or.inr (List.mem_cons_self ..)
          · exact (ih h).imp id (List.mem_cons_of_mem _)

theorem pairwise_put (key : String) (value : α) {entries : List (String × α)}
    (h : entries.Pairwise (·.1 < ·.1)) : (put key value entries).Pairwise (·.1 < ·.1) := by
  induction entries with
  | nil => simp [put]
  | cons e rest ih =>
      obtain ⟨k, v⟩ := e
      obtain ⟨hk, hrest⟩ := List.pairwise_cons.1 h
      rw [put]
      split
      next hlt =>
        refine List.pairwise_cons.2 ⟨fun e he => ?_, h⟩
        rcases List.mem_cons.1 he with rfl | he
        · exact hlt
        · exact String.lt_trans hlt (hk e he)
      next hnot =>
        split
        next heq =>
          exact List.pairwise_cons.2 ⟨fun e he => heq ▸ hk e he, hrest⟩
        next hne =>
          refine List.pairwise_cons.2 ⟨fun e he => ?_, ih hrest⟩
          rcases mem_put he with rfl | he
          · rcases String.le_total key k with hle | hle
            · exact absurd (String.le_antisymm hle (String.not_lt.1 hnot)) hne
            · exact String.not_le.1 fun h' => hne (String.le_antisymm h' hle)
          · exact hk e he

end SortedEntries

structure SortedMap (α : Type) where
  entries : List (String × α)
  sorted : entries.Pairwise (·.1 < ·.1)
deriving DecidableEq, Repr

namespace SortedMap

@[ext] theorem ext {a b : SortedMap α} (h : a.entries = b.entries) : a = b := by
  cases a; cases b; simp_all

def empty : SortedMap α := ⟨[], List.Pairwise.nil⟩

instance : Inhabited (SortedMap α) := ⟨empty⟩

def isEmpty (m : SortedMap α) : Bool :=
  m.entries.isEmpty

def get? (m : SortedMap α) (key : String) : Option α :=
  m.entries.lookup key

def insert (m : SortedMap α) (key : String) (value : α) : SortedMap α :=
  ⟨SortedEntries.put key value m.entries, SortedEntries.pairwise_put key value m.sorted⟩

/-- Inserts pairs one after another: of two with one key the later value counts. -/
def insertAll (m : SortedMap α) (pairs : List (String × α)) : SortedMap α :=
  pairs.foldl (fun acc p => acc.insert p.1 p.2) m

def ofList (pairs : List (String × α)) : SortedMap α :=
  empty.insertAll pairs

end SortedMap

end Devcontainer
