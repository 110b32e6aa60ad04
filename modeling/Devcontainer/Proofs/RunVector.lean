import Devcontainer.RunVector

/-!
# Scanning past flags

Two readings look for the image of a vector, a strict one and a lenient one. Both go past a flag that
takes no value and past a flag with its value, so they go past every run of these, and past every
list in which the strict reading finds no image.
-/

namespace Devcontainer.RunVector

/-- Both readings go past the tokens, whatever stands behind them. -/
structure Passes (tokens : List String) : Prop where
  positional : ∀ rest, positional? (tokens ++ rest) = positional? rest
  word : ∀ rest, firstWord? (tokens ++ rest) = firstWord? rest

theorem isEmpty_of_isFlag {token : String} (h : isFlag token = true) : token.isEmpty = false := by
  cases hempty : token.isEmpty with
  | false => rfl
  | true =>
      rw [String.isEmpty_iff.1 hempty] at h
      exact absurd h (by decide)

/-! ## One step of each reading -/

theorem positional?_word {token : String} (hne : token ≠ "") (hword : isFlag token = false)
    (rest : List String) : positional? (token :: rest) = .ok (some token) := by
  rw [positional?.eq_def]
  simp [hne, hword]

theorem positional?_switch {flag : String} (hflag : isFlag flag = true)
    (hswitch : takesValue flag = false) (rest : List String) :
    positional? (flag :: rest) = positional? rest := by
  rw [positional?.eq_def]
  simp [isEmpty_of_isFlag hflag, hflag, hswitch]

theorem positional?_pair {flag value : String} (hflag : isFlag flag = true)
    (htakes : takesValue flag = true) (hvalue : isFlag value = false) (rest : List String) :
    positional? (flag :: value :: rest) = positional? rest := by
  rw [positional?.eq_def]
  simp [isEmpty_of_isFlag hflag, hflag, htakes, hvalue]

theorem firstWord?_word {token : String} (hword : isFlag token = false) (rest : List String) :
    firstWord? (token :: rest) = some token := by
  rw [firstWord?.eq_def]
  simp [hword]

theorem firstWord?_switch {flag : String} (hflag : isFlag flag = true)
    (hswitch : takesValue flag = false) (rest : List String) :
    firstWord? (flag :: rest) = firstWord? rest := by
  rw [firstWord?.eq_def]
  simp [hflag, hswitch]

theorem firstWord?_pair {flag : String} (hflag : isFlag flag = true)
    (htakes : takesValue flag = true) (value : String) (rest : List String) :
    firstWord? (flag :: value :: rest) = firstWord? rest := by
  rw [firstWord?.eq_def]
  simp [hflag, htakes]

/-! ## Runs of flags -/

theorem passes_nil : Passes [] :=
  ⟨fun _ => rfl, fun _ => rfl⟩

theorem Passes.append {first second : List String} (hfirst : Passes first)
    (hsecond : Passes second) : Passes (first ++ second) where
  positional rest := by
    rw [List.append_assoc, hfirst.positional, hsecond.positional]
  word rest := by
    rw [List.append_assoc, hfirst.word, hsecond.word]

theorem passes_flatMap {α : Type} {tokens : α → List String} {items : List α}
    (h : ∀ item ∈ items, Passes (tokens item)) : Passes (items.flatMap tokens) := by
  induction items with
  | nil => exact passes_nil
  | cons item items ih =>
      rw [List.flatMap_cons]
      exact (h item (List.mem_cons_self ..)).append
        (ih fun other hother => h other (List.mem_cons_of_mem _ hother))

theorem passes_switch {flag : String} (hflag : isFlag flag = true)
    (hswitch : takesValue flag = false) : Passes [flag] :=
  ⟨positional?_switch hflag hswitch, firstWord?_switch hflag hswitch⟩

theorem passes_pair {flag value : String} (hflag : isFlag flag = true)
    (htakes : takesValue flag = true) (hvalue : isFlag value = false) : Passes [flag, value] :=
  ⟨positional?_pair hflag htakes hvalue, firstWord?_pair hflag htakes value⟩

/-- Where the strict reading comes to the end and finds no image, all are flags and their values. -/
theorem passes_of_positional? {tokens : List String} (h : positional? tokens = .ok none) :
    Passes tokens := by
  fun_induction positional? tokens with
  | case1 => exact passes_nil
  | case2 => cases h
  | case3 => cases h
  | case4 => cases h
  | case5 => cases h
  | case6 token _ hflag htakes value rest hvalue ih =>
      exact (passes_pair (by simpa using hflag) htakes (by simpa using hvalue)).append (ih h)
  | case7 token rest _ hflag htakes ih =>
      exact (passes_switch (by simpa using hflag) (by simpa using htakes)).append (ih h)

theorem Passes.image_found {flags : List String} (h : Passes flags) {word : String}
    (hne : word ≠ "") (hword : isFlag word = false) (rest : List String) :
    check ("run" :: (flags ++ word :: rest)) = .ok () ∧
      image ("run" :: (flags ++ word :: rest)) = .ok word := by
  constructor
  · rw [check, h.positional, positional?_word hne hword]
  · rw [image, withoutRun, h.word, firstWord?_word hword]

end Devcontainer.RunVector
