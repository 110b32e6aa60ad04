import Devcontainer.Descriptor.Document
import Devcontainer.Proofs.OrderedMap

/-!
# Codecs give back what they write

`Restores` says it of one value, because not every value of a type can come out of a document: no
reader answers a customization that is null, for one. The law of a codec for lists, maps or commands
follows from that of its items.
-/

namespace Devcontainer

variable {α : Type}

section

variable {β ε δ : Type} {result : Except ε α}

theorem map_eq_ok_iff {f : α → β} {b : β} :
    result.map f = .ok b ↔ ∃ a, result = .ok a ∧ f a = b := by
  cases result <;> simp [Except.map]

theorem exists_map_eq_ok_iff {f : α → β} :
    (∃ b, result.map f = .ok b) ↔ ∃ a, result = .ok a := by
  constructor
  · rintro ⟨b, hb⟩
    obtain ⟨a, ha, -⟩ := map_eq_ok_iff.1 hb
    exact ⟨a, ha⟩
  · rintro ⟨a, rfl⟩
    exact ⟨f a, rfl⟩

theorem mapError_eq_ok_iff {f : ε → δ} {a : α} : result.mapError f = .ok a ↔ result = .ok a := by
  cases result with
  | error => exact ⟨nofun, nofun⟩
  | ok => exact ⟨fun h => congrArg _ (Except.ok.inj h), fun h => congrArg _ (Except.ok.inj h)⟩

end

/-! ## Commands -/

namespace Command

theorem wordsOfJson_map_string (words : List String) :
    wordsOfJson (words.map Json.string) = .ok words := by
  induction words with
  | nil => rfl
  | cons word words ih =>
      rw [List.map_cons, wordsOfJson, ih]
      rfl

mutual

theorem ofJson_toJson : (c : Command) → ofJson c.toJson = .ok c
  | .shell line => rfl
  | .args words => by
      rw [toJson, ofJson, wordsOfJson_map_string]
      rfl
  | .steps named => by
      rw [toJson, ofJson, stepsOfJson_stepsToJson]
      rfl

theorem stepsOfJson_stepsToJson :
    (named : List (String × Command)) → stepsOfJson (stepsToJson named) = .ok named
  | [] => rfl
  | (name, command) :: rest => by
      rw [stepsToJson, stepsOfJson, ofJson_toJson command]
      simp only [stepsOfJson_stepsToJson rest]
      rfl

end

theorem toJson_ne_null (c : Command) : c.toJson ≠ .null := by
  cases c <;> simp [toJson]

theorem map_string_of_wordsOfJson {items : List Json} {words : List String}
    (h : wordsOfJson items = .ok words) : words.map Json.string = items := by
  induction items generalizing words with
  | nil =>
      obtain rfl := Except.ok.inj h
      rfl
  | cons item items ih =>
      cases item with
      | string s =>
          rw [wordsOfJson] at h
          obtain ⟨words', hwords, rfl⟩ := map_eq_ok_iff.1 h
          rw [List.map_cons, ih hwords]
      | _ => cases h

mutual

/-- A command has no other form than the one it is written in. -/
theorem toJson_of_ofJson : (v : Json) → {c : Command} → ofJson v = .ok c → c.toJson = v
  | .string s, _, h => by
      obtain rfl := Except.ok.inj h
      rfl
  | .array items, _, h => by
      rw [ofJson] at h
      obtain ⟨words, hwords, rfl⟩ := map_eq_ok_iff.1 h
      rw [toJson, map_string_of_wordsOfJson hwords]
  | .object members, _, h => by
      rw [ofJson] at h
      obtain ⟨named, hnamed, rfl⟩ := map_eq_ok_iff.1 h
      rw [toJson, stepsToJson_of_stepsOfJson members hnamed]
  | .null, _, h => nomatch h
  | .bool _, _, h => nomatch h
  | .number _, _, h => nomatch h

theorem stepsToJson_of_stepsOfJson : (members : List (String × Json)) →
    {named : List (String × Command)} → stepsOfJson members = .ok named →
    stepsToJson named = members
  | [], _, h => by
      obtain rfl := Except.ok.inj h
      rfl
  | (name, v) :: members, _, h => by
      rw [stepsOfJson] at h
      split at h
      next => cases h
      next command hv =>
        obtain ⟨named, hnamed, rfl⟩ := map_eq_ok_iff.1 h
        rw [stepsToJson, toJson_of_ofJson v hv, stepsToJson_of_stepsOfJson members hnamed]

end

end Command

/-! ## Values, lists and maps -/

namespace Codec

def Restores (codec : Codec α) (a : α) : Prop :=
  codec.read (codec.write a) = .ok a

theorem restores_string (s : String) : string.Restores s := rfl

theorem restores_bool (b : Bool) : bool.Restores b := rfl

theorem restores_json (v : Json) : json.Restores v := rfl

theorem restores_nullable {codec : Codec α} {o : Option α}
    (h : ∀ a ∈ o, codec.Restores a) (hnull : ∀ a ∈ o, codec.write a ≠ .null) :
    (nullable codec).Restores o := by
  cases o with
  | none => rfl
  | some a =>
      have hread :
          (nullable codec).read (codec.write a) = (codec.read (codec.write a)).map some := by
        simp only [nullable]
        split
        next hv => exact absurd hv (hnull a rfl)
        next => rfl
      exact hread.trans (congrArg (Except.map some) (h a rfl))

theorem readItems_map_write {codec : Codec α} {items : List α}
    (h : ∀ a ∈ items, codec.Restores a) : readItems codec (items.map codec.write) = .ok items := by
  induction items with
  | nil => rfl
  | cons a items ih =>
      have ha : codec.read (codec.write a) = .ok a := h a (List.mem_cons_self ..)
      rw [List.map_cons, readItems, ha]
      simp only [ih fun b hb => h b (List.mem_cons_of_mem _ hb)]
      rfl

theorem restores_list {codec : Codec α} {items : List α} (h : ∀ a ∈ items, codec.Restores a) :
    (list codec).Restores items :=
  readItems_map_write h

theorem readValues_map_write {codec : Codec α} {entries : List (String × α)}
    (h : ∀ e ∈ entries, codec.Restores e.2) :
    readValues codec (entries.map fun (key, a) => (key, codec.write a)) = .ok entries := by
  induction entries with
  | nil => rfl
  | cons e entries ih =>
      obtain ⟨key, a⟩ := e
      have ha : codec.read (codec.write a) = .ok a := h (key, a) (List.mem_cons_self ..)
      rw [List.map_cons, readValues, ha]
      simp only [ih fun e he => h e (List.mem_cons_of_mem _ he)]
      rfl

theorem restores_map {codec : Codec α} {m : OrderedMap α}
    (h : ∀ e ∈ m.entries, codec.Restores e.2) : (map codec).Restores m := by
  have hread : (map codec).read ((map codec).write m) = .ok (.ofList m.entries) :=
    congrArg (Except.map OrderedMap.ofList) (readValues_map_write h)
  rw [Restores, hread, OrderedMap.ofList_entries]

/-- A list is written as one, so it is restored when no single item is written as a list. -/
theorem restores_oneOrMany {codec : Codec α} {items : List α}
    (harray : ∀ vs a, codec.read (.array vs) ≠ .ok a) (h : ∀ a ∈ items, codec.Restores a) :
    (oneOrMany codec).Restores items := by
  have hlist : (list codec).read ((list codec).write items) = .ok items := restores_list h
  show (oneOrMany codec).read (.array (items.map codec.write)) = .ok items
  simp only [oneOrMany]
  split
  next a ha => exact absurd ha (harray _ a)
  next =>
    have hlist' : (list codec).read (.array (items.map codec.write)) = .ok items := hlist
    rw [hlist']

theorem restores_texts (ss : List String) : texts.Restores ss :=
  restores_list fun s _ => restores_string s

theorem restores_oneOrManyTexts (c : OneOrMany) : oneOrManyTexts.Restores c := by
  cases c with
  | one s => rfl
  | many ss =>
      have hss : texts.read (texts.write ss) = .ok ss := restores_texts ss
      show oneOrManyTexts.read (texts.write ss) = .ok (.many ss)
      simp only [oneOrManyTexts, hss]
      rfl

theorem restores_command (c : Command) : command.Restores c := by
  show (Command.ofJson c.toJson).mapError Fault.command = .ok c
  rw [Command.ofJson_toJson]
  rfl

theorem restores_port (p : Port) : port.Restores p := by
  cases p with
  | number n =>
      have hn : (n.toNat : Int) < (UInt16.size : Nat) := by exact_mod_cast n.toNat_lt
      show port.read (.number (.int n.toNat)) = .ok (.number n)
      simp only [port]
      rw [if_pos ⟨by omega, hn⟩]
      simp
  | text s => rfl

theorem restores_amount (a : Amount) : amount.Restores a := by
  cases a <;> rfl

theorem port_read_array (vs : List Json) (p : Port) : port.read (.array vs) ≠ .ok p := by
  simp [port]

theorem string_read_array (vs : List Json) (s : String) : string.read (.array vs) ≠ .ok s := by
  simp [string]

end Codec

end Devcontainer
