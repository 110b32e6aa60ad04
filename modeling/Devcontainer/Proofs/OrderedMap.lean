import Devcontainer.OrderedMap

/-!
# Filling maps in order

Pairs with new keys go behind what is there, so a map is the one that its own entries fill. The keys
of a map that is filled stand in the order in which they first came, and each has its last value.
-/

namespace Devcontainer

variable {α β : Type}

theorem foldl_append_new (listed names : List String) :
    names.foldl (fun listed name => if name ∈ listed then listed else listed ++ [name]) listed =
      listed ++ (names.filter (· ∉ listed)).eraseDups := by
  induction names generalizing listed with
  | nil => simp
  | cons name names ih =>
      rw [List.foldl_cons]
      by_cases h : name ∈ listed
      · rw [if_pos h, ih, List.filter_cons_of_neg (by simpa using h)]
      · have hfilter : names.filter (· ∉ listed ++ [name]) =
            (names.filter (· ∉ listed)).filter fun other => !other == name := by
          rw [List.filter_filter]
          apply List.filter_congr
          intro other _
          by_cases hother : other = name <;> simp [hother]
        rw [if_neg h, ih, List.filter_cons_of_pos (by simpa using h), List.eraseDups_cons, hfilter,
          List.append_assoc, List.singleton_append]

/-! ## Looking up -/

theorem lookup_cons_eq_ite (k key : String) (value : α) (rest : List (String × α)) :
    ((key, value) :: rest).lookup k = if k = key then some value else rest.lookup k := by
  rw [List.lookup_cons]
  by_cases hk : k = key
  · rw [if_pos hk, hk, beq_self_eq_true]
  · rw [if_neg hk, beq_false_of_ne hk]

theorem lookup_eq_none_of_not_mem {k : String} {pairs : List (String × α)}
    (h : k ∉ pairs.map Prod.fst) : pairs.lookup k = none := by
  rw [List.lookup_eq_none_iff]
  intro p hp
  have hne : k ≠ p.1 := by
    rintro rfl
    exact h (List.mem_map.2 ⟨p, hp, rfl⟩)
  exact bne_iff_ne.2 hne

/-- What sets one key at a time, filled from pairs with different keys, answers what they say. -/
theorem lookup_foldl_insert {M : Type} {get? : M → String → Option α}
    {insert : M → String → α → M}
    (hinsert : ∀ m key value k,
      get? (insert m key value) k = if k = key then some value else get? m k)
    {pairs : List (String × α)} (h : (pairs.map Prod.fst).Nodup) (m : M) (k : String) :
    get? (pairs.foldl (fun m p => insert m p.1 p.2) m) k = (pairs.lookup k).or (get? m k) := by
  induction pairs generalizing m with
  | nil => rfl
  | cons p pairs ih =>
      obtain ⟨key, value⟩ := p
      obtain ⟨hkey, hpairs⟩ := List.nodup_cons.1 h
      rw [List.foldl_cons, ih hpairs, hinsert, lookup_cons_eq_ite]
      by_cases hk : k = key
      · have hnone : pairs.lookup k = none := lookup_eq_none_of_not_mem (hk ▸ hkey)
        rw [if_pos hk, if_pos hk, hnone, Option.none_or, Option.some_or]
      · rw [if_neg hk, if_neg hk]

/-- Entries with different keys are known by their keys in order and by what each is looked up as. -/
theorem eq_of_lookup_eq {as bs : List (String × α)} (hkeys : as.map Prod.fst = bs.map Prod.fst)
    (hnodup : (as.map Prod.fst).Nodup) (hlookup : ∀ k, as.lookup k = bs.lookup k) : as = bs := by
  induction as generalizing bs with
  | nil => exact (List.map_eq_nil_iff.1 hkeys.symm).symm
  | cons a as ih =>
      obtain ⟨key, value⟩ := a
      cases bs with
      | nil => cases hkeys
      | cons b bs =>
          obtain ⟨key', value'⟩ := b
          obtain ⟨rfl, hrest⟩ : key = key' ∧ as.map Prod.fst = bs.map Prod.fst :=
            List.cons.inj hkeys
          obtain ⟨hkey, hnodup⟩ := List.nodup_cons.1 hnodup
          have hvalue : value = value' := by
            have h := hlookup key
            rw [lookup_cons_eq_ite, lookup_cons_eq_ite, if_pos rfl, if_pos rfl] at h
            exact Option.some.inj h
          have htail : as = bs := by
            refine ih hrest hnodup fun k => ?_
            have h := hlookup k
            rw [lookup_cons_eq_ite, lookup_cons_eq_ite] at h
            by_cases hk : k = key
            · rw [hk, lookup_eq_none_of_not_mem hkey, lookup_eq_none_of_not_mem (hrest ▸ hkey)]
            · rwa [if_neg hk, if_neg hk] at h
          rw [hvalue, htail]

/-! ## Entries and maps -/

theorem Entries.mem_put {key : String} {value : α} {e : String × α} {entries : List (String × α)}
    (h : e ∈ put key value entries) : e = (key, value) ∨ e ∈ entries := by
  induction entries with
  | nil => exact Or.inl (List.mem_singleton.1 h)
  | cons first rest ih =>
      rw [put] at h
      split at h
      next =>
        rcases List.mem_cons.1 h with rfl | h
        · exact Or.inl rfl
        · exact Or.inr (List.mem_cons_of_mem _ h)
      next =>
        rcases List.mem_cons.1 h with rfl | h
        · exact Or.inr (List.mem_cons_self ..)
        · exact (ih h).imp_right (List.mem_cons_of_mem _)

theorem Entries.put_of_not_mem {key : String} (value : α) {entries : List (String × α)}
    (h : key ∉ entries.map Prod.fst) : put key value entries = entries ++ [(key, value)] := by
  induction entries with
  | nil => rfl
  | cons e rest ih =>
      obtain ⟨k, v⟩ := e
      have hk : k ≠ key := fun hk => h (by simp [hk])
      have hrest : key ∉ rest.map Prod.fst := fun hrest => h (List.mem_cons_of_mem _ hrest)
      rw [put, if_neg hk, ih hrest]
      rfl

namespace OrderedMap

theorem keys_insert (m : OrderedMap α) (key : String) (value : α) :
    (m.insert key value).keys = if key ∈ m.keys then m.keys else m.keys ++ [key] :=
  Entries.map_fst_put key value m.entries

theorem mem_keys_insert {m : OrderedMap α} {key k : String} {value : α} :
    k ∈ (m.insert key value).keys ↔ k = key ∨ k ∈ m.keys := by
  rw [keys_insert]
  split
  next h => exact ⟨Or.inr, fun hk => hk.elim (fun e => e ▸ h) id⟩
  next => rw [List.mem_append, List.mem_singleton, or_comm]

theorem mem_keys_insertAll {m : OrderedMap α} {pairs : List (String × α)} {k : String} :
    k ∈ (m.insertAll pairs).keys ↔ k ∈ m.keys ∨ k ∈ pairs.map Prod.fst := by
  induction pairs generalizing m with
  | nil => simp
  | cons p pairs ih =>
      rw [insertAll_cons, ih, mem_keys_insert, List.map_cons, List.mem_cons, or_left_comm, or_assoc]

theorem mem_keys_union {base upper : OrderedMap α} {k : String} :
    k ∈ (base.union upper).keys ↔ k ∈ base.keys ∨ k ∈ upper.keys :=
  mem_keys_insertAll

theorem forall_mem_insert {P : String × α → Prop} {m : OrderedMap α} {key : String} {value : α}
    (hm : ∀ e ∈ m.entries, P e) (hvalue : P (key, value)) :
    ∀ e ∈ (m.insert key value).entries, P e := by
  intro e he
  rcases Entries.mem_put he with rfl | he
  · exact hvalue
  · exact hm e he

theorem mem_insertAll {m : OrderedMap α} {pairs : List (String × α)} {e : String × α}
    (h : e ∈ (m.insertAll pairs).entries) : e ∈ m.entries ∨ e ∈ pairs := by
  induction pairs generalizing m with
  | nil => exact Or.inl h
  | cons p pairs ih =>
      rcases ih h with h | h
      · rcases Entries.mem_put h with rfl | h
        · exact Or.inr (List.mem_cons_self ..)
        · exact Or.inl h
      · exact Or.inr (List.mem_cons_of_mem _ h)

theorem mem_ofList {pairs : List (String × α)} {e : String × α}
    (h : e ∈ (ofList pairs).entries) : e ∈ pairs :=
  (mem_insertAll h).resolve_left List.not_mem_nil

theorem entries_insert_of_not_mem {m : OrderedMap α} {key : String} (value : α)
    (h : key ∉ m.keys) : (m.insert key value).entries = m.entries ++ [(key, value)] :=
  Entries.put_of_not_mem value h

theorem entries_insertAll_of_nodup {m : OrderedMap α} {pairs : List (String × α)}
    (h : ((m.entries ++ pairs).map Prod.fst).Nodup) :
    (m.insertAll pairs).entries = m.entries ++ pairs := by
  induction pairs generalizing m with
  | nil => simp
  | cons p pairs ih =>
      have hp : p.1 ∉ m.keys := by
        rw [List.map_append, List.nodup_append] at h
        exact fun hp => h.2.2 p.1 hp p.1 (by simp) rfl
      have hm := entries_insert_of_not_mem p.2 hp
      rw [insertAll_cons, ih (by rw [hm]; simpa using h), hm]
      simp

@[simp] theorem ofList_entries (m : OrderedMap α) : ofList m.entries = m := by
  apply ext
  exact entries_insertAll_of_nodup (m := empty) m.distinct

theorem eq_empty_of_isEmpty {m : OrderedMap α} (h : m.isEmpty = true) : m = empty := by
  apply ext
  exact List.isEmpty_iff.1 h

theorem ext_get? {a b : OrderedMap α} (hkeys : a.keys = b.keys) (hget : ∀ k, a.get? k = b.get? k) :
    a = b := by
  apply ext
  exact eq_of_lookup_eq hkeys a.distinct hget

theorem keys_insertAll (m : OrderedMap α) (pairs : List (String × α)) :
    (m.insertAll pairs).keys =
      m.keys ++ ((pairs.map Prod.fst).filter (· ∉ m.keys)).eraseDups := by
  rw [← foldl_append_new]
  induction pairs generalizing m with
  | nil => rfl
  | cons p pairs ih => rw [insertAll_cons, ih, keys_insert, List.map_cons, List.foldl_cons]

theorem eraseDups_keys (m : OrderedMap α) : m.keys.eraseDups = m.keys := by
  have hfill : m.keys = (empty.insertAll m.entries).keys := congrArg keys (ofList_entries m).symm
  rw [keys_insertAll] at hfill
  have hfilter : (m.entries.map Prod.fst).filter (· ∉ (empty : OrderedMap α).keys) = m.keys :=
    List.filter_eq_self.2 fun _ _ => decide_eq_true List.not_mem_nil
  rw [hfilter] at hfill
  exact hfill.symm

theorem keys_union_of_eraseDups {base upper : OrderedMap α} {names : List String}
    (h : base.keys = names.eraseDups) :
    (base.union upper).keys = (names ++ upper.keys).eraseDups := by
  have hkeys : (base.union upper).keys =
      base.keys ++ (upper.keys.filter (· ∉ base.keys)).eraseDups := keys_insertAll ..
  have hfilter : upper.keys.filter (· ∉ base.keys) = upper.keys.removeAll names := by
    apply List.filter_congr
    intro key _
    simp [h]
  rw [hkeys, hfilter, h, List.eraseDups_append]

theorem get?_insert (m : OrderedMap α) (key : String) (value : α) (k : String) :
    (m.insert key value).get? k = if k = key then some value else m.get? k := by
  by_cases hk : k = key
  · rw [if_pos hk, hk]
    exact Entries.lookup_put_self key value m.entries
  · rw [if_neg hk]
    exact Entries.lookup_put_ne value m.entries hk

theorem get?_union (base upper : OrderedMap α) (k : String) :
    (base.union upper).get? k = (upper.get? k).or (base.get? k) :=
  lookup_foldl_insert get?_insert upper.distinct base k

theorem get?_map (f : α → β) (m : OrderedMap α) (k : String) :
    (m.map f).get? k = (m.get? k).map f := by
  unfold get?
  rw [entries_map]
  induction m.entries with
  | nil => rfl
  | cons e rest ih =>
      obtain ⟨key, value⟩ := e
      rw [List.map_cons, lookup_cons_eq_ite, lookup_cons_eq_ite, ih]
      by_cases hk : k = key
      · rw [if_pos hk, if_pos hk, Option.map_some]
      · rw [if_neg hk, if_neg hk]

end OrderedMap

end Devcontainer
