import Devcontainer.SortedMap
import Devcontainer.Proofs.OrderedMap

/-!
# Values in maps

A sorted map that is filled from pairs with different keys answers what the pairs say, so sorting
the entries of a map by their keys changes no value. Its entries are the pairs, in the order of their
keys, so it does not matter in which order the pairs were.
-/

namespace Devcontainer

variable {α : Type}

theorem SortedEntries.lookup_put (key : String) (value : α) (entries : List (String × α))
    (k : String) :
    (put key value entries).lookup k = if k = key then some value else entries.lookup k := by
  induction entries with
  | nil => exact lookup_cons_eq_ite k key value []
  | cons e rest ih =>
      obtain ⟨k', v⟩ := e
      rw [put]
      split
      next => exact lookup_cons_eq_ite k key value _
      next =>
        split
        next heq =>
          rw [lookup_cons_eq_ite, lookup_cons_eq_ite, ← heq]
          by_cases hk : k = key
          · rw [if_pos hk, if_pos hk]
          · rw [if_neg hk, if_neg hk, if_neg hk]
        next hne =>
          rw [lookup_cons_eq_ite, lookup_cons_eq_ite, ih]
          by_cases hk : k = key
          · rw [if_neg (hk ▸ hne), if_pos hk, if_pos hk]
          · rw [if_neg hk, if_neg hk]

theorem SortedEntries.perm_put {key : String} (value : α) {entries : List (String × α)}
    (h : key ∉ entries.map Prod.fst) : (put key value entries).Perm ((key, value) :: entries) := by
  induction entries with
  | nil => exact List.Perm.refl _
  | cons e rest ih =>
      obtain ⟨k, v⟩ := e
      have hk : key ≠ k := fun hk => h (hk ▸ List.mem_cons_self ..)
      have hrest : key ∉ rest.map Prod.fst := fun hrest => h (List.mem_cons_of_mem _ hrest)
      rw [put, if_neg hk]
      split
      next => exact List.Perm.refl _
      next => exact ((ih hrest).cons (k, v)).trans (List.Perm.swap ..)

namespace SortedMap

theorem get?_insert (m : SortedMap α) (key : String) (value : α) (k : String) :
    (m.insert key value).get? k = if k = key then some value else m.get? k :=
  SortedEntries.lookup_put key value m.entries k

theorem get?_insertAll {pairs : List (String × α)} (h : (pairs.map Prod.fst).Nodup)
    (m : SortedMap α) (k : String) :
    (m.insertAll pairs).get? k = (pairs.lookup k).or (m.get? k) :=
  lookup_foldl_insert get?_insert h m k

theorem get?_ofList {pairs : List (String × α)} (h : (pairs.map Prod.fst).Nodup) (k : String) :
    (ofList pairs).get? k = pairs.lookup k := by
  rw [ofList, get?_insertAll h]
  exact Option.or_none

theorem nodup_keys (m : SortedMap α) : (m.entries.map Prod.fst).Nodup :=
  List.pairwise_map.2 (m.sorted.imp fun {a b} hlt (heq : a.1 = b.1) =>
    String.lt_irrefl b.1 (heq ▸ hlt))

theorem insertAll_append (m : SortedMap α) (pairs more : List (String × α)) :
    m.insertAll (pairs ++ more) = (m.insertAll pairs).insertAll more :=
  List.foldl_append

theorem get?_insertAll_of_forall {pairs : List (String × α)} {k : String} {value : α}
    (h : ∀ v, (k, v) ∈ pairs → v = value) (m : SortedMap α) :
    (m.insertAll pairs).get? k = if k ∈ pairs.map Prod.fst then some value else m.get? k := by
  induction pairs generalizing m with
  | nil => rfl
  | cons p pairs ih =>
      obtain ⟨key, v⟩ := p
      have hpairs : ∀ v, (k, v) ∈ pairs → v = value := fun v hv => h v (List.mem_cons_of_mem _ hv)
      have hstep : (m.insertAll ((key, v) :: pairs)).get? k =
          ((m.insert key v).insertAll pairs).get? k := rfl
      rw [hstep, ih hpairs, get?_insert, List.map_cons]
      by_cases hmem : k ∈ pairs.map Prod.fst
      · rw [if_pos hmem, if_pos (List.mem_cons_of_mem _ hmem)]
      · by_cases hk : k = key
        · subst hk
          rw [if_neg hmem, if_pos rfl, if_pos (List.mem_cons_self ..),
            h v (List.mem_cons_self ..)]
        · rw [if_neg hmem, if_neg hk, if_neg (by simp [hk, hmem])]

theorem perm_entries_insertAll {m : SortedMap α} {pairs : List (String × α)}
    (h : ((m.entries ++ pairs).map Prod.fst).Nodup) :
    (m.insertAll pairs).entries.Perm (m.entries ++ pairs) := by
  induction pairs generalizing m with
  | nil => exact (List.append_nil m.entries).symm ▸ List.Perm.refl _
  | cons p pairs ih =>
      obtain ⟨key, value⟩ := p
      have hmiddle : (m.entries ++ (key, value) :: pairs).Perm
          ((key, value) :: (m.entries ++ pairs)) := List.perm_middle
      have hkey : key ∉ m.entries.map Prod.fst := by
        have hall := (hmiddle.map Prod.fst).nodup_iff.1 h
        rw [List.map_cons, List.nodup_cons, List.map_append, List.mem_append] at hall
        exact fun hmem => hall.1 (.inl hmem)
      have hput : (m.insert key value).entries.Perm ((key, value) :: m.entries) :=
        SortedEntries.perm_put value hkey
      have hfirst : ((m.insert key value).entries ++ pairs).Perm
          (m.entries ++ (key, value) :: pairs) := (hput.append_right pairs).trans hmiddle.symm
      exact (ih ((hfirst.map Prod.fst).nodup_iff.2 h)).trans hfirst

theorem perm_entries_ofList {pairs : List (String × α)} (h : (pairs.map Prod.fst).Nodup) :
    (ofList pairs).entries.Perm pairs :=
  perm_entries_insertAll h

/-- Sorted maps with the same entries, in whatever order, are equal. -/
theorem eq_of_perm_entries {m m' : SortedMap α} (h : m.entries.Perm m'.entries) : m = m' := by
  refine ext (h.eq_of_pairwise (fun a b _ _ hab hba => ?_) m.sorted m'.sorted)
  exact absurd hba (String.lt_asymm hab)

theorem ofList_eq_of_perm {pairs pairs' : List (String × α)} (hd : (pairs.map Prod.fst).Nodup)
    (h : pairs.Perm pairs') : ofList pairs = ofList pairs' := by
  have hd' : (pairs'.map Prod.fst).Nodup := (h.map Prod.fst).nodup_iff.1 hd
  exact eq_of_perm_entries
    ((perm_entries_ofList hd).trans (h.trans (perm_entries_ofList hd').symm))

end SortedMap

end Devcontainer
