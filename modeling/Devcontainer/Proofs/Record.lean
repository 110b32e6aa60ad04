import Devcontainer.Proofs.Codec

/-!
# Records give back what they write

A record is written key by key, and reading the result copies one part of the record after another
into the empty one. `Copies` says it of a field, `Copied` of a table of fields; which part a field
stands for is given by a function that copies just that part.
-/

namespace Devcontainer

variable {R α : Type}

namespace Field

/-- Reading what the field writes of `r` copies its part of `r` into `target`. Where it writes
nothing, that part of `target` is already as in `r`. -/
def Copies (f : Field R) (copy : R → R → R) (r target : R) : Prop :=
  match f.write r with
  | none => copy r target = target
  | some v => ∃ set, f.read v = .ok set ∧ set target = copy r target

section

variable {key : String} {codec : Codec α} {set : α → R → R} {copy : R → R → R} {r target : R}

theorem read_optional {get : R → Option α} {v : Json} (hv : v ≠ .null) :
    (optional key codec get set).read v = (codec.read v).map set := by
  simp only [optional]

theorem read_optional_eq_ok {get : R → Option α} {v : Json} {change : R → R}
    (h : (optional key codec get set).read v = .ok change) :
    change = id ∨ ∃ a, v ≠ .null ∧ codec.read v = .ok a ∧ change = set a := by
  by_cases hv : v = .null
  · subst hv
    exact Or.inl (Except.ok.inj h).symm
  · rw [read_optional hv] at h
    obtain ⟨a, ha, hchange⟩ := map_eq_ok_iff.1 h
    exact Or.inr ⟨a, hv, ha, hchange.symm⟩

theorem copies_optional {get : R → Option α}
    (hcodec : ∀ a, get r = some a → codec.Restores a ∧ codec.write a ≠ .null)
    (hcopy : (get r).elim target (fun a => set a target) = copy r target) :
    (optional key codec get set).Copies copy r target := by
  have hwrite : (optional key codec get set).write r = (get r).map codec.write := rfl
  unfold Copies
  rw [hwrite]
  cases hr : get r with
  | none =>
      rw [hr] at hcopy
      exact hcopy.symm
  | some a =>
      obtain ⟨hread, hnull⟩ := hcodec a hr
      have hread : codec.read (codec.write a) = .ok a := hread
      rw [hr] at hcopy
      refine ⟨set a, ?_, hcopy⟩
      rw [read_optional hnull, hread]
      rfl

theorem copies_omitted {isEmpty : α → Bool} {get : R → α}
    (hcodec : codec.Restores (get r)) (hnull : codec.write (get r) ≠ .null)
    (hcopy : set (get r) target = copy r target)
    (hempty : isEmpty (get r) = true → copy r target = target) :
    (omitted key codec isEmpty get set).Copies copy r target := by
  unfold omitted
  apply copies_optional
  · intro a ha
    split at ha
    next => cases ha
    next => cases ha; exact ⟨hcodec, hnull⟩
  · split
    next h => exact (hempty h).symm
    next => exact hcopy

theorem copies_withAlias {f : Field R} {name : String} (h : f.Copies copy r target) :
    (f.withAlias name).Copies copy r target := h

end

def Preserves (P : R → Prop) (f : Field R) : Prop :=
  ∀ v set, f.read v = .ok set → ∀ r, P r → P (set r)

def PreservesFrom (Q : Json → Prop) (P : R → Prop) (f : Field R) : Prop :=
  ∀ v, Q v → ∀ set, f.read v = .ok set → ∀ r, P r → P (set r)

theorem Preserves.preservesFrom {P : R → Prop} {f : Field R} (h : f.Preserves P)
    (Q : Json → Prop) : f.PreservesFrom Q P := fun v _ => h v

theorem preservesFrom_optional {Q : Json → Prop} {P : R → Prop} {key : String} {codec : Codec α}
    {get : R → Option α} {set : α → R → R}
    (h : ∀ v a, Q v → v ≠ .null → codec.read v = .ok a → ∀ r, P r → P (set a r)) :
    (optional key codec get set).PreservesFrom Q P := by
  intro v hv change hread r hr
  rcases read_optional_eq_ok hread with rfl | ⟨a, hnull, ha, rfl⟩
  · exact hr
  · exact h v a hv hnull ha r hr

theorem preserves_optional {P : R → Prop} {key : String} {codec : Codec α} {get : R → Option α}
    {set : α → R → R}
    (h : ∀ v a, v ≠ .null → codec.read v = .ok a → ∀ r, P r → P (set a r)) :
    (optional key codec get set).Preserves P := fun v =>
  preservesFrom_optional (Q := fun _ => True) (fun v a _ => h v a) v trivial

theorem preserves_withAlias {P : R → Prop} {f : Field R} {name : String} (h : f.Preserves P) :
    (f.withAlias name).Preserves P := h

end Field

namespace Record

/-- Field by field, each on what those before it have made of `target`. -/
def Copied (r : R) : List (Field R) → List (R → R → R) → R → Prop
  | [], [], _ => True
  | f :: fields, copy :: copies, target =>
    f.Copies copy r target ∧ Copied r fields copies (copy r target)
  | _, _, _ => False

def copyAll (copies : List (R → R → R)) (r target : R) : R :=
  copies.foldl (fun target copy => copy r target) target

def Distinct (record : Record R) : Prop :=
  record.fields.Pairwise fun f g => f.answersTo g.key = false

/-- The keys kept aside are none of the table. -/
def Sound (record : Record R) (r : R) : Prop :=
  ∀ key ∈ (record.other r).keys, record.field? key = none

structure KeepsOther (record : Record R) : Prop where
  other_setOther : ∀ m r, record.other (record.setOther m r) = m
  setOther_setOther : ∀ m m' r, record.setOther m (record.setOther m' r) = record.setOther m r
  setOther_other : ∀ r, record.setOther (record.other r) r = r

variable {record : Record R}

theorem answersTo_key (f : Field R) : f.answersTo f.key = true := by
  simp [Field.answersTo]

private theorem find_answersTo_key {fields : List (Field R)} {f : Field R}
    (hd : fields.Pairwise fun f g => f.answersTo g.key = false) (hf : f ∈ fields) :
    fields.find? (·.answersTo f.key) = some f := by
  induction fields with
  | nil => cases hf
  | cons g fields ih =>
      obtain ⟨hg, hfields⟩ := List.pairwise_cons.1 hd
      rcases List.mem_cons.1 hf with rfl | hf
      · rw [List.find?_cons, answersTo_key]
      · rw [List.find?_cons, hg f hf]
        exact ih hfields hf

theorem field?_key (hd : record.Distinct) {f : Field R} (hf : f ∈ record.fields) :
    record.field? f.key = some f :=
  find_answersTo_key hd hf

def written (fields : List (Field R)) (r : R) : List (String × Json) :=
  fields.filterMap fun f => (f.write r).map (f.key, ·)

theorem written_cons (f : Field R) (fields : List (Field R)) (r : R) :
    written (f :: fields) r = ((f.write r).map (f.key, ·)).toList ++ written fields r := by
  unfold written
  cases hf : f.write r <;> simp [hf]

theorem readMembers_cons_field {f : Field R} {key : String} {v : Json} {set : R → R}
    {seen : List String} {members : List (String × Json)} {target : R}
    (hkey : record.field? key = some f) (hseen : f.key ∉ seen) (hread : f.read v = .ok set) :
    record.readMembers seen ((key, v) :: members) target =
      record.readMembers (f.key :: seen) members (set target) := by
  rw [readMembers]
  simp only [hkey, hseen, hread, if_false]

/-- Reading the members of a table of fields makes all the copies, whatever members follow. -/
theorem readMembers_written {fields : List (Field R)} {copies : List (R → R → R)} {r target : R}
    (hkeys : ∀ f ∈ fields, record.field? f.key = some f)
    (hd : fields.Pairwise fun f g => f.answersTo g.key = false)
    (hcopied : Copied r fields copies target) {seen : List String}
    (hseen : ∀ f ∈ fields, f.key ∉ seen) (members : List (String × Json)) :
    ∃ seen', record.readMembers seen (written fields r ++ members) target =
      record.readMembers seen' members (copyAll copies r target) := by
  induction fields generalizing copies target seen with
  | nil =>
      cases copies with
      | nil => exact ⟨seen, rfl⟩
      | cons copy copies => exact hcopied.elim
  | cons f fields ih =>
      cases copies with
      | nil => exact hcopied.elim
      | cons copy copies =>
          obtain ⟨hf, hrest⟩ := hcopied
          obtain ⟨hfirst, hlater⟩ := List.pairwise_cons.1 hd
          have hkeys' : ∀ g ∈ fields, record.field? g.key = some g := fun g hg =>
            hkeys g (List.mem_cons_of_mem _ hg)
          have hseen' : ∀ g ∈ fields, g.key ∉ seen := fun g hg =>
            hseen g (List.mem_cons_of_mem _ hg)
          unfold Field.Copies at hf
          rw [written_cons]
          cases hw : f.write r with
          | none =>
              rw [hw] at hf
              simp only at hf
              rw [hf] at hrest
              obtain ⟨seen', h⟩ := ih hkeys' hlater hrest hseen'
              refine ⟨seen', h.trans ?_⟩
              simp only [copyAll, List.foldl_cons, hf]
          | some v =>
              rw [hw] at hf
              obtain ⟨set, hread, hset⟩ := hf
              have hne : ∀ g ∈ fields, g.key ∉ f.key :: seen := by
                intro g hg hmem
                rcases List.mem_cons.1 hmem with he | hmem
                · have := hfirst g hg
                  rw [he, answersTo_key] at this
                  cases this
                · exact hseen' g hg hmem
              obtain ⟨seen', h⟩ := ih hkeys' hlater hrest hne
              refine ⟨seen', ?_⟩
              rw [Option.map_some, Option.toList_some, List.cons_append, List.nil_append,
                List.cons_append, readMembers_cons_field (hkeys f (List.mem_cons_self ..))
                  (hseen f (List.mem_cons_self ..)) hread, hset]
              exact h

theorem readMembers_other (hkeeps : record.KeepsOther) {seen : List String}
    {members : List (String × Json)} (hmembers : ∀ e ∈ members, record.field? e.1 = none) (r : R) :
    record.readMembers seen members r =
      .ok (record.setOther ((record.other r).insertAll members) r) := by
  induction members generalizing r with
  | nil =>
      rw [readMembers, OrderedMap.insertAll_nil, hkeeps.setOther_other]
  | cons e members ih =>
      obtain ⟨key, v⟩ := e
      have hkey : record.field? key = none := hmembers (key, v) (List.mem_cons_self ..)
      rw [readMembers]
      simp only [hkey]
      rw [ih fun e he => hmembers e (List.mem_cons_of_mem _ he), hkeeps.other_setOther,
        hkeeps.setOther_setOther]
      rfl

theorem read_write {copies : List (R → R → R)} {r : R} (hd : record.Distinct)
    (hkeeps : record.KeepsOther) (hsound : record.Sound r)
    (hcopied : Copied r record.fields copies record.empty)
    (hother : record.other (copyAll copies r record.empty) = .empty) :
    record.read (record.write r) =
      .ok (record.setOther (record.other r) (copyAll copies r record.empty)) := by
  have hseen : ∀ f ∈ record.fields, f.key ∉ ([] : List String) := fun _ _ => List.not_mem_nil
  obtain ⟨seen', h⟩ := readMembers_written (fun f hf => field?_key hd hf) hd hcopied hseen
    (record.other r).entries
  have hentries : ∀ e ∈ (record.other r).entries, record.field? e.1 = none := fun e he =>
    hsound e.1 (List.mem_map_of_mem he)
  have hread : record.read (record.write r) = record.readMembers seen' (record.other r).entries
      (copyAll copies r record.empty) := h
  rw [hread, readMembers_other hkeeps hentries, hother]
  exact congrArg (fun m => Except.ok (record.setOther m _)) (OrderedMap.ofList_entries _)

theorem read_induction_from {Q : Json → Prop} {P : R → Prop} (hempty : P record.empty)
    (hfield : ∀ f ∈ record.fields, f.PreservesFrom Q P)
    (hother : ∀ key v r, Q v → record.field? key = none → P r →
      P (record.setOther ((record.other r).insert key v) r))
    {members : List (String × Json)} (hmembers : ∀ e ∈ members, Q e.2) {r : R}
    (h : record.read members = .ok r) : P r := by
  have hrun : ∀ members seen start, (∀ e ∈ members, Q e.2) → P start →
      record.readMembers seen members start = .ok r → P r := by
    intro members
    induction members with
    | nil =>
        intro seen start _ hstart h
        exact Except.ok.inj h ▸ hstart
    | cons e members ih =>
        obtain ⟨key, v⟩ := e
        intro seen start hmembers hstart h
        obtain ⟨hv, hmembers⟩ := List.forall_mem_cons.1 hmembers
        rw [readMembers] at h
        split at h
        next hkey => exact ih _ _ hmembers (hother key v start hv hkey hstart) h
        next f hkey =>
          have hf : f ∈ record.fields := List.mem_of_find?_eq_some hkey
          split at h
          next => cases h
          next =>
            split at h
            next => cases h
            next set hread => exact ih _ _ hmembers (hfield f hf v hv set hread start hstart) h
  exact hrun members [] record.empty hmembers hempty h

/-- What every field and every key kept aside preserves holds of a record that has been read. -/
theorem read_induction {P : R → Prop} (hempty : P record.empty)
    (hfield : ∀ f ∈ record.fields, f.Preserves P)
    (hother : ∀ key v r, record.field? key = none → P r →
      P (record.setOther ((record.other r).insert key v) r))
    {members : List (String × Json)} {r : R} (h : record.read members = .ok r) : P r :=
  read_induction_from (Q := fun _ => True) hempty (fun f hf => (hfield f hf).preservesFrom _)
    (fun key v r _ => hother key v r) (fun _ _ => trivial) h

theorem other_of_readMembers (hkeeps : record.KeepsOther)
    (hfields : ∀ f ∈ record.fields, ∀ m, f.Preserves (record.other · = m))
    {members : List (String × Json)} {seen : List String} {start r : R}
    (h : record.readMembers seen members start = .ok r) : record.other r =
      (record.other start).insertAll (members.filter fun e => (record.field? e.1).isNone) := by
  induction members generalizing seen start with
  | nil => rw [← Except.ok.inj h, List.filter_nil, OrderedMap.insertAll_nil]
  | cons e members ih =>
      obtain ⟨key, v⟩ := e
      rw [readMembers] at h
      split at h
      next hkey =>
        rw [ih h, hkeeps.other_setOther, List.filter_cons_of_pos (by simp [hkey]),
          OrderedMap.insertAll_cons]
      next f hkey =>
        have hf : f ∈ record.fields := List.mem_of_find?_eq_some hkey
        split at h
        next => cases h
        next =>
          split at h
          next => cases h
          next set hread =>
            have hset : record.other (set start) = record.other start :=
              hfields f hf _ v set hread start rfl
            rw [ih h, hset, List.filter_cons_of_neg (by simp [hkey])]

theorem other_of_read (hkeeps : record.KeepsOther)
    (hfields : ∀ f ∈ record.fields, ∀ m, f.Preserves (record.other · = m))
    (hempty : record.other record.empty = .empty) {members : List (String × Json)} {r : R}
    (h : record.read members = .ok r) : record.other r =
      .ofList (members.filter fun e => (record.field? e.1).isNone) := by
  rw [other_of_readMembers hkeeps hfields h, hempty]
  rfl

theorem mem_other_of_read (hkeeps : record.KeepsOther)
    (hfields : ∀ f ∈ record.fields, ∀ m, f.Preserves (record.other · = m))
    (hempty : record.other record.empty = .empty) {members : List (String × Json)} {r : R}
    (h : record.read members = .ok r) {e : String × Json} (he : e ∈ (record.other r).entries) :
    e ∈ members ∧ record.field? e.1 = none := by
  rw [other_of_read hkeeps hfields hempty h] at he
  obtain ⟨hmem, hkey⟩ := List.mem_filter.1 (OrderedMap.mem_ofList he)
  exact ⟨hmem, Option.isNone_iff_eq_none.1 hkey⟩

theorem sound_setOther_insert (hkeeps : record.KeepsOther) {key : String} {v : Json} {r : R}
    (hkey : record.field? key = none) (hr : record.Sound r) :
    record.Sound (record.setOther ((record.other r).insert key v) r) := by
  intro k hk
  rw [hkeeps.other_setOther, OrderedMap.mem_keys_insert] at hk
  rcases hk with rfl | hk
  · exact hkey
  · exact hr k hk

end Record

end Devcontainer
