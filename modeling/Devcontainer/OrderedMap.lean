/-!
# Maps in order of insertion

A document keeps its keys in the order in which they were first written. Setting a key again
changes its value and not its place.
-/

namespace Devcontainer

variable {α β : Type}

namespace Entries

/-- Sets the value of a key: in place where the key stands already, else at the end. -/
def put (key : String) (value : α) : List (String × α) → List (String × α)
  | [] => [(key, value)]
  | (k, v) :: rest => if k = key then (key, value) :: rest else (k, v) :: put key value rest

theorem map_fst_put (key : String) (value : α) (entries : List (String × α)) :
    (put key value entries).map Prod.fst =
      if key ∈ entries.map Prod.fst then entries.map Prod.fst
      else entries.map Prod.fst ++ [key] := by
  induction entries with
  | nil => simp [put]
  | cons e rest ih =>
      obtain ⟨k, v⟩ := e
      by_cases h : k = key
      · simp [put, h]
      · have h' : ¬ key = k := fun e => h e.symm
        by_cases hm : key ∈ rest.map Prod.fst
        · rw [if_pos hm] at ih
          simp [put, h, h', ih, hm]
        · rw [if_neg hm] at ih
          simp [put, h, h', ih, hm]

theorem nodup_put (key : String) (value : α) {entries : List (String × α)}
    (h : (entries.map Prod.fst).Nodup) : ((put key value entries).map Prod.fst).Nodup := by
  rw [map_fst_put]
  split
  · exact h
  · next hk =>
    refine List.nodup_append.2 ⟨h, by simp, fun a ha b hb => ?_⟩
    obtain rfl : b = key := by simpa using hb
    rintro rfl
    exact hk ha

theorem lookup_put_self (key : String) (value : α) (entries : List (String × α)) :
    (put key value entries).lookup key = some value := by
  induction entries with
  | nil => simp [put]
  | cons e rest ih =>
      obtain ⟨k, v⟩ := e
      by_cases h : k = key
      · simp [put, h]
      · have h' : (key == k) = false := by simpa using fun e : key = k => h e.symm
        simp [put, h, List.lookup_cons, h', ih]

theorem lookup_put_ne {key other : String} (value : α) (entries : List (String × α))
    (h : other ≠ key) : (put key value entries).lookup other = entries.lookup other := by
  induction entries with
  | nil =>
      have h' : (other == key) = false := by simpa using h
      simp [put, List.lookup_cons, h']
  | cons e rest ih =>
      obtain ⟨k, v⟩ := e
      by_cases hk : k = key
      · have h' : (other == key) = false := by simpa using h
        simp [put, hk, List.lookup_cons, h']
      · simp [put, hk, List.lookup_cons, ih]

end Entries

structure OrderedMap (α : Type) where
  entries : List (String × α)
  distinct : (entries.map Prod.fst).Nodup
deriving DecidableEq, Repr

namespace OrderedMap

@[ext] theorem ext {a b : OrderedMap α} (h : a.entries = b.entries) : a = b := by
  cases a; cases b; simp_all

def empty : OrderedMap α := ⟨[], by simp⟩

instance : Inhabited (OrderedMap α) := ⟨empty⟩

def keys (m : OrderedMap α) : List String :=
  m.entries.map Prod.fst

def get? (m : OrderedMap α) (key : String) : Option α :=
  m.entries.lookup key

def isEmpty (m : OrderedMap α) : Bool :=
  m.entries.isEmpty

def insert (m : OrderedMap α) (key : String) (value : α) : OrderedMap α :=
  ⟨Entries.put key value m.entries, Entries.nodup_put key value m.distinct⟩

/-- Inserts pairs one after another: of two with one key the later value counts. -/
def insertAll (m : OrderedMap α) (pairs : List (String × α)) : OrderedMap α :=
  pairs.foldl (fun acc p => acc.insert p.1 p.2) m

def ofList (pairs : List (String × α)) : OrderedMap α :=
  empty.insertAll pairs

/-- Both maps' keys, those of `base` first; on a shared key the value of `overlay` counts. -/
def union (base overlay : OrderedMap α) : OrderedMap α :=
  base.insertAll overlay.entries

def map (f : α → β) (m : OrderedMap α) : OrderedMap β where
  entries := m.entries.map fun (k, v) => (k, f v)
  distinct := by simpa [List.map_map, Function.comp_def] using m.distinct

def mapM {m : Type → Type} [Monad m] (f : α → m β) (map : OrderedMap α) : m (OrderedMap β) :=
  return ofList (← map.entries.mapM fun (key, value) => return (key, ← f value))

def values (m : OrderedMap α) : List α :=
  m.entries.map Prod.snd

@[simp] theorem entries_map (f : α → β) (m : OrderedMap α) :
    (m.map f).entries = m.entries.map fun (k, v) => (k, f v) := rfl

@[simp] theorem insertAll_nil (m : OrderedMap α) : m.insertAll [] = m := rfl

@[simp] theorem insertAll_cons (m : OrderedMap α) (p : String × α) (pairs : List (String × α)) :
    m.insertAll (p :: pairs) = (m.insert p.1 p.2).insertAll pairs := rfl

end OrderedMap

end Devcontainer
