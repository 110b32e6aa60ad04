import Devcontainer.Document.Reader
import Devcontainer.Proofs.OrderedMap
import Devcontainer.Proofs.Text.Replace
import Mathlib.Tactic.SplitIfs

/-!
# What is read from a document

A document is read by putting one value after another into the arrays and objects around it. So what
is kept when values are put together holds of the whole, once it holds of the numbers. A key that is
written again takes the later value at the earlier place, so no object, at any depth, has two members
with one key.
-/

namespace Devcontainer

namespace Json

theorem distinctKeysItems_iff {items : List Json} :
    DistinctKeysItems items ↔ ∀ item ∈ items, item.DistinctKeys := by
  induction items with
  | nil => simp [DistinctKeysItems]
  | cons item items ih => rw [DistinctKeysItems, ih, List.forall_mem_cons]

theorem distinctKeysMembers_iff {members : List (String × Json)} :
    DistinctKeysMembers members ↔ ∀ e ∈ members, e.2.DistinctKeys := by
  induction members with
  | nil => simp [DistinctKeysMembers]
  | cons e members ih => rw [DistinctKeysMembers, ih, List.forall_mem_cons]

/-- A property of values that is kept when they are put together. -/
structure Composed (P : Json → Prop) : Prop where
  null : P null
  bool : ∀ b, P (bool b)
  string : ∀ s, P (string s)
  emptyArray : P (array [])
  concat : ∀ {items v}, P (array items) → P v → P (array (items ++ [v]))
  emptyObject : P (object [])
  put : ∀ {members key v}, P (object members) → P v → P (object (Entries.put key v members))

theorem distinctKeys_array_concat {items : List Json} {v : Json}
    (hitems : (array items).DistinctKeys) (hv : v.DistinctKeys) :
    (array (items ++ [v])).DistinctKeys := by
  rw [DistinctKeys, distinctKeysItems_iff] at hitems ⊢
  intro item hitem
  rcases List.mem_append.1 hitem with h | h
  · exact hitems item h
  · exact List.mem_singleton.1 h ▸ hv

theorem distinctKeys_object_put {members : List (String × Json)} {key : String} {v : Json}
    (hmembers : (object members).DistinctKeys) (hv : v.DistinctKeys) :
    (object (Entries.put key v members)).DistinctKeys := by
  rw [DistinctKeys, distinctKeysMembers_iff] at hmembers ⊢
  refine ⟨Entries.nodup_put key v hmembers.1, fun e he => ?_⟩
  rcases Entries.mem_put he with rfl | he
  · exact hv
  · exact hmembers.2 e he

theorem composed_distinctKeys : Composed DistinctKeys where
  null := trivial
  bool _ := trivial
  string _ := trivial
  emptyArray := trivial
  concat := distinctKeys_array_concat
  emptyObject := ⟨List.nodup_nil, trivial⟩
  put := distinctKeys_object_put

end Json

namespace Document

open Text

/-! ## Tokens -/

theorem distinctKeys_of_value? {negative : Bool} {n : Numeral} {v : Json}
    (h : n.value? negative = some v) : v.DistinctKeys := by
  unfold Numeral.value? at h
  split at h
  next =>
    obtain ⟨-, hv⟩ := Option.ite_none_right_eq_some.1 h
    obtain rfl := Option.some.inj hv
    trivial
  next =>
    obtain ⟨x, -, rfl⟩ := Option.map_eq_some_iff.1 h
    trivial

theorem distinctKeys_of_numberAt {text : List Char} {v : Json} {width : Nat}
    (h : numberAt text = some (v, width)) : v.DistinctKeys := by
  unfold numberAt at h
  simp only at h
  split at h
  next digits _ =>
    obtain ⟨-, hn⟩ := Option.ite_none_left_eq_some.1 h
    obtain ⟨n, -, hn⟩ := Option.map_eq_some_iff.1 hn
    obtain ⟨rfl, -⟩ := Prod.mk.inj hn
    trivial
  next =>
    split at h
    next word _ =>
      obtain ⟨-, hn⟩ := Option.ite_none_left_eq_some.1 h
      obtain ⟨rfl, -⟩ := Prod.mk.inj (Option.some.inj hn)
      trivial
    next =>
      obtain ⟨n, -, h⟩ := Option.bind_eq_some_iff.1 h
      obtain ⟨u, hu, h⟩ := Option.bind_eq_some_iff.1 h
      obtain ⟨rfl, -⟩ := Prod.mk.inj (Option.some.inj h)
      exact distinctKeys_of_value? hu

theorem quotedAt_ne_numeral (quote : Char) (rest : List Char) (v : Json) :
    (quotedAt quote rest).1 ≠ .token (.numeral v) := by
  unfold quotedAt
  split
  · nofun
  · split <;> nofun

theorem commentAt_ne_numeral (rest : List Char) (v : Json) :
    (commentAt rest).1 ≠ .token (.numeral v) := by
  unfold commentAt
  split
  · nofun
  · split <;> nofun
  · nofun

theorem nameAt_ne_numeral (text : List Char) (v : Json) :
    (nameAt text).1 ≠ .token (.numeral v) := by
  unfold nameAt
  simp only
  split <;> nofun

/-- Of the tokens only numbers carry a value. -/
theorem exists_numberAt_of_lexemeAt {text : List Char} {v : Json}
    (h : (lexemeAt text).1 = .token (.numeral v)) : ∃ width, numberAt text = some (v, width) := by
  unfold lexemeAt at h
  split at h
  next => cases h
  next c rest =>
    split at h
    -- marks of one character
    iterate 6 next => cases h
    next => exact absurd h (quotedAt_ne_numeral _ _ v)
    next => exact absurd h (quotedAt_ne_numeral _ _ v)
    next => exact absurd h (commentAt_ne_numeral rest v)
    next =>
      split_ifs at h
      · unfold numberLexeme at h
        split at h
        next u width hnumber =>
          cases h
          exact ⟨width, hnumber⟩
        next => cases h
      · exact absurd h (nameAt_ne_numeral _ v)

theorem mem_of_tokens? {lexemes : List Lexeme} {ts : List Token} (h : tokens? lexemes = some ts)
    {t : Token} (ht : t ∈ ts) : .token t ∈ lexemes := by
  induction lexemes generalizing ts with
  | nil =>
      obtain rfl := Option.some.inj h
      cases ht
  | cons lexeme lexemes ih =>
      cases lexeme with
      | blank => exact List.mem_cons_of_mem _ (ih h ht)
      | fault => cases h
      | token first =>
          obtain ⟨rest, hrest, rfl⟩ := Option.map_eq_some_iff.1 h
          rcases List.mem_cons.1 ht with rfl | ht
          · exact List.mem_cons_self ..
          · exact List.mem_cons_of_mem _ (ih hrest ht)

theorem exists_numberAt_of_lex {text : List Char} {ts : List Token} (h : lex text = some ts)
    {v : Json} (hv : .numeral v ∈ ts) : ∃ rest width, numberAt rest = some (v, width) := by
  obtain ⟨rest, -, -, hrest⟩ := exists_suffix_of_mem_scanFrom (mem_of_tokens? h hv)
  exact ⟨rest, exists_numberAt_of_lexemeAt hrest⟩

/-! ## States -/

def Frame.value : Frame → Json
  | .array items => .array items
  | .object members _ => .object members

/-- All that is held while a document is read. -/
def State.values : State → List Json
  | .value outer => outer.map Frame.value
  | .item items outer => .array items :: outer.map Frame.value
  | .member members outer => .object members :: outer.map Frame.value
  | .afterKey members _ outer => .object members :: outer.map Frame.value
  | .afterValue v outer => v :: outer.map Frame.value

def State.Holds (P : Json → Prop) (s : State) : Prop :=
  ∀ v ∈ s.values, P v

section

variable {P : Json → Prop} (hP : Json.Composed P)

include hP

theorem holds_nameValue? {s : String} {plain : Bool} {v : Json}
    (h : nameValue? s plain = some v) : P v := by
  unfold nameValue? at h
  split_ifs at h <;> cases h
  · exact hP.null
  · exact hP.bool true
  · exact hP.bool false
  · exact hP.null

theorem holds_startValue {outer : List Frame} {t : Token} {s : State}
    (ht : ∀ v, t = .numeral v → P v) (houter : (State.value outer).Holds P)
    (h : startValue outer t = some s) : s.Holds P := by
  have hcons : ∀ v : Json, P v → ∀ u ∈ v :: outer.map Frame.value, P u :=
    fun v hv => List.forall_mem_cons.2 ⟨hv, houter⟩
  cases t with
  | braceOpen => cases h; exact hcons _ hP.emptyObject
  | bracketOpen => cases h; exact hcons _ hP.emptyArray
  | text s => cases h; exact hcons _ (hP.string s)
  | numeral v => cases h; exact hcons _ (ht v rfl)
  | name s plain =>
      obtain ⟨v, hv, rfl⟩ := Option.map_eq_some_iff.1 h
      exact hcons v (holds_nameValue? hP hv)
  | braceClose | bracketClose | comma | colon => cases h

theorem holds_addItem {v : Json} {items : List Json} {outer : List Frame}
    (h : (State.afterValue v (.array items :: outer)).Holds P) :
    ∀ u ∈ Json.array (items ++ [v]) :: outer.map Frame.value, P u := by
  obtain ⟨hv, h⟩ := List.forall_mem_cons.1 h
  obtain ⟨hitems, houter⟩ := List.forall_mem_cons.1 h
  exact List.forall_mem_cons.2 ⟨hP.concat hitems hv, houter⟩

theorem holds_addMember {v : Json} {members : List (String × Json)} {key : String}
    {outer : List Frame} (h : (State.afterValue v (.object members key :: outer)).Holds P) :
    ∀ u ∈ Json.object (Entries.put key v members) :: outer.map Frame.value, P u := by
  obtain ⟨hv, h⟩ := List.forall_mem_cons.1 h
  obtain ⟨hmembers, houter⟩ := List.forall_mem_cons.1 h
  exact List.forall_mem_cons.2 ⟨hP.put hmembers hv, houter⟩

theorem holds_step {s s' : State} {t : Token} (ht : ∀ v, t = .numeral v → P v) (hs : s.Holds P)
    (h : s.step t = some s') : s'.Holds P := by
  unfold State.step at h
  split at h
  -- where a value may start
  next => exact holds_startValue hP ht hs h
  next => cases h; exact hs
  next =>
    refine holds_startValue hP ht ?_ h
    exact hs
  -- keys, and the end of an empty object
  next => cases h; exact hs
  next => cases h; exact hs
  next => cases h; exact hs
  next => cases h; exact hs
  -- behind a value
  next => cases h; exact holds_addItem hP hs
  next => cases h; exact holds_addItem hP hs
  next => cases h; exact holds_addMember hP hs
  next => cases h; exact holds_addMember hP hs
  next => cases h

theorem holds_foldlM_step {ts : List Token} (hts : ∀ v, .numeral v ∈ ts → P v) {s s' : State}
    (hs : s.Holds P) (h : ts.foldlM State.step s = some s') : s'.Holds P := by
  induction ts generalizing s with
  | nil => exact Option.some.inj h ▸ hs
  | cons t ts ih =>
      rw [List.foldlM_cons] at h
      obtain ⟨next, hnext, hrest⟩ := Option.bind_eq_some_iff.1 h
      refine ih (fun v hv => hts v (List.mem_cons_of_mem t hv)) ?_ hrest
      exact holds_step hP (fun v hv => hts v (hv ▸ List.mem_cons_self ..)) hs hnext

theorem holds_of_read? (hnumber : ∀ text v width, numberAt text = some (v, width) → P v)
    {text : String} {v : Json} (h : read? text = some v) : P v := by
  obtain ⟨ts, hlex, hts⟩ := Option.bind_eq_some_iff.1 h
  unfold ofTokens? at hts
  split at hts
  next last hlast =>
    obtain rfl := Option.some.inj hts
    have hnumerals : ∀ v, .numeral v ∈ ts → P v := fun v hv => by
      obtain ⟨rest, width, hrest⟩ := exists_numberAt_of_lex hlex hv
      exact hnumber rest v width hrest
    have hstart : (State.value []).Holds P := fun _ hv => absurd hv List.not_mem_nil
    exact holds_foldlM_step hP hnumerals hstart hlast _ (List.mem_cons_self ..)
  next => cases hts

end

theorem distinctKeys_of_read? {text : String} {v : Json} (h : read? text = some v) :
    v.DistinctKeys :=
  holds_of_read? Json.composed_distinctKeys (fun _ _ _ => distinctKeys_of_numberAt) h

end Document

end Devcontainer
