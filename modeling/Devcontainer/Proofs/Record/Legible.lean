import Devcontainer.Proofs.Json.Legible
import Devcontainer.Proofs.Record

/-!
# Records write what a document can hold

What a record writes is legible when its fields write legible values and the keys kept aside have
some. Most codecs write nothing else; the others write it for what they have read from a legible
value.
-/

namespace Devcontainer

variable {R α : Type}

open Json

/-! ## Codecs -/

namespace Codec

theorem legible_list {codec : Codec α} {items : List α}
    (h : ∀ a ∈ items, (codec.write a).Legible) : ((list codec).write items).Legible :=
  legible_array_iff.2 (List.forall_mem_map.2 h)

theorem legible_map {codec : Codec α} {m : OrderedMap α}
    (h : ∀ e ∈ m.entries, (codec.write e.2).Legible) : ((map codec).write m).Legible := by
  refine legible_object_iff.2 ⟨?_, List.forall_mem_map.2 h⟩
  rw [List.map_map]
  exact m.distinct

theorem legible_nullable {codec : Codec α} {o : Option α}
    (h : ∀ a ∈ o, (codec.write a).Legible) : ((nullable codec).write o).Legible := by
  cases o with
  | none => exact legible_null
  | some a => exact h a rfl

theorem legible_texts (ss : List String) : (texts.write ss).Legible :=
  legible_list fun s _ => legible_string s

theorem legible_oneOrManyTexts (c : OneOrMany) : (oneOrManyTexts.write c).Legible := by
  cases c with
  | one s => exact legible_string s
  | many ss => exact legible_texts ss

theorem legible_port (p : Port) : (port.write p).Legible := by
  cases p with
  | number n =>
      have hn : n.toNat < UInt16.size := n.toNat_lt
      refine legible_number_iff.2 ⟨by omega, ?_⟩
      unfold UInt16.size at hn
      omega
  | text s => exact legible_string s

theorem legible_command {v : Json} {c : Command} (hv : v.Legible) (h : command.read v = .ok c) :
    (command.write c).Legible := by
  have hc : Command.ofJson v = .ok c := mapError_eq_ok_iff.1 h
  have hwrite : command.write c = v := Command.toJson_of_ofJson v hc
  exact hwrite.symm ▸ hv

theorem legible_amount {v : Json} {a : Amount} (hv : v.Legible) (h : amount.read v = .ok a) :
    (amount.write a).Legible := by
  simp only [amount] at h
  split at h
  next n =>
    split at h
    next x hx =>
      obtain rfl := Except.ok.inj h
      exact legible_number_iff.2 (Binary64.normal_of_ofInt? hx)
    next => cases h
  next x =>
    obtain rfl := Except.ok.inj h
    exact hv
  next s =>
    obtain rfl := Except.ok.inj h
    exact hv
  next => cases h

theorem readValues_json {members : List (String × Json)} {entries : List (String × Json)}
    (h : readValues json members = .ok entries) : entries = members := by
  induction members generalizing entries with
  | nil => exact (Except.ok.inj h).symm
  | cons e members ih =>
      rw [readValues] at h
      obtain ⟨entries', hentries, rfl⟩ := map_eq_ok_iff.1 h
      rw [ih hentries]

theorem legible_of_read_map_json {v : Json} {m : OrderedMap Json} (hv : v.Legible)
    (h : (map json).read v = .ok m) : ∀ e ∈ m.entries, e.2.Legible := by
  cases v with
  | object members =>
      obtain ⟨entries, hentries, rfl⟩ := map_eq_ok_iff.1 h
      rw [readValues_json hentries]
      exact fun e he => (legible_object_iff.1 hv).2 e (OrderedMap.mem_ofList he)
  | _ => cases h

end Codec

/-! ## Fields and records -/

namespace Field

/-- Whether a document can hold what the field writes, if it writes anything. -/
def Legible (f : Field R) (r : R) : Prop :=
  ∀ v ∈ f.write r, v.Legible

variable {key : String} {codec : Codec α} {set : α → R → R} {r : R}

theorem legible_optional {get : R → Option α}
    (h : ∀ a, get r = some a → (codec.write a).Legible) :
    (optional key codec get set).Legible r := by
  intro v hv
  obtain ⟨a, ha, rfl⟩ := Option.map_eq_some_iff.1 hv
  exact h a ha

theorem legible_omitted {isEmpty : α → Bool} {get : R → α} (h : (codec.write (get r)).Legible) :
    (omitted key codec isEmpty get set).Legible r := by
  refine legible_optional fun a ha => ?_
  split at ha
  next => cases ha
  next => exact Option.some.inj ha ▸ h

theorem legible_withAlias {f : Field R} {name : String} (h : f.Legible r) :
    (f.withAlias name).Legible r := h

end Field

namespace Record

variable {record : Record R} {r : R}

theorem keys_written_sublist (fields : List (Field R)) (r : R) :
    ((written fields r).map Prod.fst).Sublist (fields.map (·.key)) := by
  induction fields with
  | nil => exact List.Sublist.slnil
  | cons f fields ih =>
      rw [written_cons, List.map_append, List.map_cons]
      cases f.write r with
      | none => exact ih.cons _
      | some v => exact ih.cons_cons _

theorem keys_nodup (hd : record.Distinct) : (record.fields.map (·.key)).Nodup := by
  refine List.pairwise_map.2 (hd.imp fun {f g} h hkey => ?_)
  rw [← hkey, answersTo_key] at h
  cases h

theorem legible_write (hd : record.Distinct) (hsound : record.Sound r)
    (hfields : ∀ f ∈ record.fields, f.Legible r)
    (hother : ∀ e ∈ (record.other r).entries, e.2.Legible) :
    (object (record.write r)).Legible := by
  have hkeys := keys_written_sublist record.fields r
  refine legible_object_iff.2 ⟨?_, ?_⟩
  · show ((written record.fields r ++ (record.other r).entries).map Prod.fst).Nodup
    rw [List.map_append, List.nodup_append]
    refine ⟨hkeys.nodup (keys_nodup hd), (record.other r).distinct, ?_⟩
    intro key hkey key' hkey' heq
    obtain ⟨f, hf, rfl⟩ := List.mem_map.1 (hkeys.subset hkey)
    have hnone : record.field? key' = none := hsound key' hkey'
    rw [← heq, field?_key hd hf] at hnone
    cases hnone
  · refine List.forall_mem_append.2 ⟨fun e he => ?_, hother⟩
    obtain ⟨f, hf, he⟩ := List.mem_filterMap.1 he
    obtain ⟨v, hv, rfl⟩ := Option.map_eq_some_iff.1 he
    exact hfields f hf v hv

end Record

end Devcontainer
