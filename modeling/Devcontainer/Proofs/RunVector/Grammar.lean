import Devcontainer.Proofs.RunVector
import Mathlib.Data.List.Basic

/-!
# The grammar of a run

A vector that starts with `run` is accepted exactly when it has the form of a run: the word, then
flags with the values of those that take one, then an image. This reading is the only one, both
readings of the code come to its image, and what stands behind the image has no say.
-/

namespace Devcontainer.RunVector

/-- Tokens that are flags, each alone or with the value that it takes. -/
inductive FlagBlocks : List String → Prop where
  | nil : FlagBlocks []
  | switch {flag : String} {rest : List String} :
    isFlag flag = true → takesValue flag = false → FlagBlocks rest → FlagBlocks (flag :: rest)
  | pair {flag value : String} {rest : List String} :
    takesValue flag = true → isFlag value = false → FlagBlocks rest →
      FlagBlocks (flag :: value :: rest)

def IsWord (token : String) : Prop :=
  token ≠ "" ∧ isFlag token = false

instance (token : String) : Decidable (IsWord token) :=
  inferInstanceAs (Decidable (_ ∧ _))

/-- The vector has an image at place `i`: between its first token and this one all are blocks of
flags. -/
structure ImageAt (tokens : List String) (i : Nat) (word : String) : Prop where
  pos : 1 ≤ i
  blocks : FlagBlocks ((tokens.take i).drop 1)
  found : tokens[i]? = some word
  isWord : IsWord word

theorem isFlag_of_takesValue {token : String} (h : takesValue token = true) :
    isFlag token = true := by
  have hall : ∀ flag ∈ valueFlags, isFlag flag = true := by decide
  exact hall token (List.contains_iff_mem.1 h)

/-! ## Blocks -/

theorem FlagBlocks.passes {tokens : List String} (h : FlagBlocks tokens) : Passes tokens := by
  induction h with
  | nil => exact passes_nil
  | switch hflag hswitch _ ih => exact (passes_switch hflag hswitch).append ih
  | pair htakes hvalue _ ih =>
      exact (passes_pair (isFlag_of_takesValue htakes) htakes hvalue).append ih

theorem FlagBlocks.isFlag_head {token : String} {rest : List String}
    (h : FlagBlocks (token :: rest)) : isFlag token = true := by
  cases h with
  | switch hflag _ _ => exact hflag
  | pair htakes _ _ => exact isFlag_of_takesValue htakes

theorem FlagBlocks.of_switch {flag : String} {rest : List String} (hswitch : takesValue flag = false)
    (h : FlagBlocks (flag :: rest)) : FlagBlocks rest := by
  cases h with
  | switch _ _ hrest => exact hrest
  | pair htakes _ _ =>
      rw [hswitch] at htakes
      cases htakes

theorem FlagBlocks.of_pair {flag value : String} {rest : List String}
    (htakes : takesValue flag = true) (h : FlagBlocks (flag :: value :: rest)) :
    FlagBlocks rest := by
  cases h with
  | switch _ hswitch _ =>
      rw [hswitch] at htakes
      cases htakes
  | pair _ _ hrest => exact hrest

/-- Blocks are read in one way only, so what is left behind some of them are blocks again. -/
theorem FlagBlocks.of_append {tokens rest : List String} (h : FlagBlocks tokens)
    (hall : FlagBlocks (tokens ++ rest)) : FlagBlocks rest := by
  induction h with
  | nil => exact hall
  | switch _ hswitch _ ih => exact ih (hall.of_switch hswitch)
  | pair htakes _ _ ih => exact ih (hall.of_pair htakes)

theorem FlagBlocks.not_append_word {flags rest : List String} {word : String}
    (h : FlagBlocks flags) (hword : IsWord word) : ¬ FlagBlocks (flags ++ word :: rest) := by
  intro hall
  have hflag := (h.of_append hall).isFlag_head
  rw [hword.2] at hflag
  cases hflag

theorem FlagBlocks.eq_of_append_eq {flags flags' rest rest' : List String} {word word' : String}
    (hflags : FlagBlocks flags) (hflags' : FlagBlocks flags') (hword : IsWord word)
    (hword' : IsWord word') (h : flags ++ word :: rest = flags' ++ word' :: rest') :
    flags = flags' := by
  -- were one of the two longer, the word behind the other would stand among its blocks
  rcases List.append_eq_append_iff.1 h with ⟨more, hmore, hrest⟩ | ⟨more, hmore, hrest⟩
  · cases more with
    | nil => rw [hmore, List.append_nil]
    | cons first more =>
        obtain rfl : word = first := (List.cons.inj hrest).1
        exact absurd (hmore ▸ hflags') (hflags.not_append_word hword)
  · cases more with
    | nil => rw [hmore, List.append_nil]
    | cons first more =>
        obtain rfl : word' = first := (List.cons.inj hrest).1
        exact absurd (hmore ▸ hflags) (hflags'.not_append_word hword')

/-! ## Both readings -/

theorem exists_blocks_of_positional? {tokens : List String} {word : String}
    (h : positional? tokens = .ok (some word)) :
    ∃ flags rest, tokens = flags ++ word :: rest ∧ FlagBlocks flags ∧ IsWord word := by
  fun_induction positional? tokens with
  | case1 => cases h
  | case2 => cases h
  | case3 token rest hne hword =>
      cases h
      exact ⟨[], rest, rfl, .nil, by simpa using hne, by simpa using hword⟩
  | case4 => cases h
  | case5 => cases h
  | case6 flag _ _ htakes value rest hvalue ih =>
      obtain ⟨flags, after, rfl, hflags, hword⟩ := ih h
      exact ⟨flag :: value :: flags, after, rfl, .pair htakes (by simpa using hvalue) hflags, hword⟩
  | case7 flag rest _ hflag htakes ih =>
      obtain ⟨flags, after, rfl, hflags, hword⟩ := ih h
      exact ⟨flag :: flags, after, rfl,
        .switch (by simpa using hflag) (by simpa using htakes) hflags, hword⟩

theorem check_run_eq_ok_iff {tokens : List String} :
    check ("run" :: tokens) = .ok () ↔ ∃ word, positional? tokens = .ok (some word) := by
  rw [check]
  rcases positional? tokens with fault | (_ | word)
  · simp
  · simp
  · simp

theorem imageAt_run_iff {tokens : List String} {i : Nat} {word : String} :
    ImageAt ("run" :: tokens) i word ↔ ∃ flags rest, tokens = flags ++ word :: rest ∧
      i = flags.length + 1 ∧ FlagBlocks flags ∧ IsWord word := by
  constructor
  · rintro ⟨hpos, hblocks, hfound, hword⟩
    obtain ⟨i, rfl⟩ := Nat.exists_eq_add_of_le' hpos
    rw [List.getElem?_cons_succ] at hfound
    obtain ⟨hlt, hget⟩ := List.getElem?_eq_some_iff.1 hfound
    have hsplit : tokens = tokens.take i ++ word :: tokens.drop (i + 1) := by
      rw [← hget, List.getElem_cons_drop, List.take_append_drop]
    refine ⟨tokens.take i, tokens.drop (i + 1), hsplit, ?_, hblocks, hword⟩
    rw [List.length_take, Nat.min_eq_left (Nat.le_of_lt hlt)]
  · rintro ⟨flags, rest, rfl, rfl, hflags, hword⟩
    refine ⟨Nat.le_add_left 1 _, ?_, ?_, hword⟩
    · rw [List.take_succ_cons, List.drop_succ_cons, List.drop_zero, List.take_left]
      exact hflags
    · rw [List.getElem?_cons_succ, List.getElem?_append_right (Nat.le_refl _), Nat.sub_self,
        List.getElem?_cons_zero]

/-- A vector that starts with `run` is accepted exactly when it has an image behind blocks of flags.
There is one place for it, the image is the token there, and both answers are settled by the tokens
up to it. -/
theorem check_iff_imageAt {tokens : List String} (hrun : tokens.head? = some "run") :
    (check tokens = .ok () ↔ ∃ i word, ImageAt tokens i word) ∧
    ∀ i word, ImageAt tokens i word →
      (∀ j word', ImageAt tokens j word' → j = i) ∧ image tokens = .ok word ∧
      ∀ tail, check (tokens.take (i + 1) ++ tail) = .ok () ∧
        image (tokens.take (i + 1) ++ tail) = .ok word := by
  obtain ⟨tokens, rfl⟩ := List.head?_eq_some_iff.1 hrun
  refine ⟨⟨fun hcheck => ?_, ?_⟩, fun i word hat => ?_⟩
  · obtain ⟨word, hfound⟩ := check_run_eq_ok_iff.1 hcheck
    obtain ⟨flags, rest, htokens, hflags, hword⟩ := exists_blocks_of_positional? hfound
    exact ⟨flags.length + 1, word,
      imageAt_run_iff.2 ⟨flags, rest, htokens, rfl, hflags, hword⟩⟩
  · rintro ⟨i, word, hat⟩
    obtain ⟨flags, rest, rfl, -, hflags, hword⟩ := imageAt_run_iff.1 hat
    exact (hflags.passes.image_found hword.1 hword.2 rest).1
  · obtain ⟨flags, rest, rfl, rfl, hflags, hword⟩ := imageAt_run_iff.1 hat
    refine ⟨fun j word' hat' => ?_, (hflags.passes.image_found hword.1 hword.2 rest).2,
      fun tail => ?_⟩
    · obtain ⟨flags', rest', htokens, rfl, hflags', hword'⟩ := imageAt_run_iff.1 hat'
      rw [hflags.eq_of_append_eq hflags' hword hword' htokens]
    · have hhead : ("run" :: (flags ++ word :: rest)).take (flags.length + 1 + 1) ++ tail =
          "run" :: (flags ++ word :: tail) := by
        rw [List.take_succ_cons, List.take_length_add_append]
        simp
      rw [hhead]
      exact hflags.passes.image_found hword.1 hword.2 tail

theorem check_iff_imageAt_alpine :
    let tokens := ["run", "--rm", "-e", "", "alpine", "-e"]
    tokens.head? = some "run" ∧ ImageAt tokens 4 "alpine" ∧ check tokens = .ok () ∧
      image tokens = .ok "alpine" ∧
      ∀ tail, check (["run", "--rm", "-e", "", "alpine"] ++ tail) = .ok () := by
  intro tokens
  have hblocks : FlagBlocks ["--rm", "-e", ""] :=
    .switch (by decide) (by decide) (.pair (by decide) (by decide) .nil)
  have hat : ImageAt tokens 4 "alpine" := ⟨by decide, hblocks, rfl, by decide⟩
  have hrun : tokens.head? = some "run" := rfl
  obtain ⟨hcheck, himage⟩ := check_iff_imageAt hrun
  obtain ⟨-, hfound, htail⟩ := himage 4 "alpine" hat
  exact ⟨hrun, hat, hcheck.2 ⟨4, "alpine", hat⟩, hfound, fun tail => (htail tail).1⟩

end Devcontainer.RunVector
