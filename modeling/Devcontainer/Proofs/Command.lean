import Devcontainer.Proofs.Codec

/-!
# The JSON of a command

A value is read as a command when it is a line, a list of words or an object of such values at any
depth. What is read is written as the value it was read from, and what is written is read as the
command it was written from, so commands and the values of this form are the same thing.
-/

namespace Devcontainer.Command

inductive IsCommand : Json → Prop where
  | shell (line : String) : IsCommand (.string line)
  | args {items : List Json} : (∀ item ∈ items, ∃ word, item = .string word) →
    IsCommand (.array items)
  | steps {members : List (String × Json)} : (∀ member ∈ members, IsCommand member.2) →
    IsCommand (.object members)

theorem isCommand_array_iff {items : List Json} :
    IsCommand (.array items) ↔ ∀ item ∈ items, ∃ word, item = .string word :=
  ⟨fun h => by cases h with | args hitems => exact hitems, .args⟩

theorem isCommand_object_iff {members : List (String × Json)} :
    IsCommand (.object members) ↔ ∀ member ∈ members, IsCommand member.2 :=
  ⟨fun h => by cases h with | steps hmembers => exact hmembers, .steps⟩

/-! ## What is read -/

theorem exists_wordsOfJson_iff {items : List Json} :
    (∃ words, wordsOfJson items = .ok words) ↔ ∀ item ∈ items, ∃ word, item = .string word := by
  induction items with
  | nil => exact iff_of_true ⟨[], rfl⟩ (by simp)
  | cons item items ih =>
      rw [List.forall_mem_cons]
      cases item with
      | string s =>
          rw [wordsOfJson, exists_map_eq_ok_iff, ih]
          exact (and_iff_right ⟨s, rfl⟩).symm
      | _ =>
          refine iff_of_false ?_ ?_
          · rintro ⟨_, h⟩
            cases h
          · rintro ⟨⟨_, h⟩, -⟩
            cases h

mutual

theorem exists_ofJson_iff : (v : Json) → ((∃ command, ofJson v = .ok command) ↔ IsCommand v)
  | .string line => iff_of_true ⟨.shell line, rfl⟩ (.shell line)
  | .array items => by
      rw [ofJson, exists_map_eq_ok_iff, exists_wordsOfJson_iff, isCommand_array_iff]
  | .object members => by
      rw [ofJson, exists_map_eq_ok_iff, exists_stepsOfJson_iff members, isCommand_object_iff]
  | .null => iff_of_false nofun nofun
  | .bool _ => iff_of_false nofun nofun
  | .number _ => iff_of_false nofun nofun

theorem exists_stepsOfJson_iff : (members : List (String × Json)) →
    ((∃ named, stepsOfJson members = .ok named) ↔ ∀ member ∈ members, IsCommand member.2)
  | [] => iff_of_true ⟨[], rfl⟩ (by simp)
  | (name, v) :: members => by
      rw [List.forall_mem_cons, ← exists_ofJson_iff v, ← exists_stepsOfJson_iff members,
        stepsOfJson]
      -- the first step that is no command ends the reading, whatever the later ones are
      cases ofJson v with
      | error cause => exact iff_of_false nofun nofun
      | ok command => exact exists_map_eq_ok_iff.trans (and_iff_right ⟨command, rfl⟩).symm

end

/-- Exactly the values of the form of a command are read as one, and a value is read as a command
exactly when the command is written as the value, with its steps in the same order. -/
theorem ofJson_exact (v : Json) :
    ((∃ command, ofJson v = .ok command) ↔ IsCommand v) ∧
      (∀ command, ofJson v = .ok command → command.toJson = v) ∧
      ∀ command : Command, ofJson command.toJson = .ok command :=
  ⟨exists_ofJson_iff v, fun _ h => toJson_of_ofJson v h, ofJson_toJson⟩

end Devcontainer.Command
