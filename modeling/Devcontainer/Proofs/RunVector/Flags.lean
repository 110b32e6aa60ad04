import Devcontainer.Proofs.RunVector.Grammar

/-!
# Flags that are checked alone

A list of flags can be checked before it is put into a run vector. This check looks for no image, so
it accepts words between the flags, but it gives every flag its value as both readings of a run
vector do. What it accepts is blocks of flags, or blocks of flags up to a first word. In front of an
image the one is passed over by both readings, and the other one ends them with its own word.
-/

namespace Devcontainer.RunVector

def IsValue (tokens : List String) : Nat → Prop
  | 0 => False
  | i + 1 => ∃ flag ∈ tokens[i]?, takesValue flag = true

def WordFree (tokens : List String) : Prop :=
  ∀ i token, tokens[i]? = some token → ¬ IsValue tokens i → isFlag token = true

theorem takesValue_of_not_isFlag {token : String} (h : isFlag token = false) :
    takesValue token = false := by
  by_contra htakes
  rw [isFlag_of_takesValue (by simpa using htakes)] at h
  cases h

theorem isValue_cons_succ {token : String} {tokens : List String} {i : Nat} :
    IsValue (token :: tokens) (i + 1) ↔ i = 0 ∧ takesValue token = true ∨ IsValue tokens i := by
  cases i <;> simp [IsValue]

/-! ## Blocks and words -/

theorem FlagBlocks.wordFree {tokens : List String} (h : FlagBlocks tokens) : WordFree tokens := by
  induction h with
  | nil =>
      intro i token hfound
      cases hfound
  | switch hflag _ _ ih =>
      intro i token hfound hvalue
      cases i with
      | zero =>
          cases hfound
          exact hflag
      | succ i => exact ih i token hfound fun h => hvalue (isValue_cons_succ.2 (.inr h))
  | pair htakes _ _ ih =>
      intro i token hfound hvalue
      match i with
      | 0 =>
          cases hfound
          exact isFlag_of_takesValue htakes
      | 1 => exact absurd (isValue_cons_succ.2 (.inl ⟨rfl, htakes⟩)) hvalue
      | i + 2 =>
          exact ih i token hfound fun h =>
            hvalue (isValue_cons_succ.2 (.inr (isValue_cons_succ.2 (.inr h))))

theorem FlagBlocks.not_isValue_append {flags : List String} (h : FlagBlocks flags)
    (rest : List String) : ¬ IsValue (flags ++ rest) flags.length := by
  induction h with
  | nil => exact id
  | switch _ hswitch _ ih =>
      rw [List.cons_append, List.length_cons, isValue_cons_succ, hswitch]
      simpa using ih
  | pair _ hvalue _ ih =>
      rw [List.cons_append, List.cons_append, List.length_cons, List.length_cons,
        isValue_cons_succ, isValue_cons_succ, takesValue_of_not_isFlag hvalue]
      simpa using ih

theorem FlagBlocks.not_wordFree_append {flags : List String} {word : String}
    (h : FlagBlocks flags) (hword : IsWord word) (rest : List String) :
    ¬ WordFree (flags ++ word :: rest) := by
  intro hfree
  have hflag := hfree flags.length word (by simp) (h.not_isValue_append _)
  rw [hword.2] at hflag
  cases hflag

/-! ## The check of flags -/

/-- Flags that are accepted alone are blocks, at least up to their first word. -/
theorem blocks_or_word_of_checkFlags {flags : List String} (h : checkFlags flags = .ok ()) :
    FlagBlocks flags ∨ ∃ before word after,
      flags = before ++ word :: after ∧ FlagBlocks before ∧ IsWord word := by
  fun_induction checkFlags flags with
  | case1 => exact .inl .nil
  | case2 => cases h
  | case3 => cases h
  | case4 => cases h
  | case5 flag _ htakes value rest hvalue ih =>
      have hword : isFlag value = false := by simpa using hvalue
      rcases ih h with hrest | ⟨before, word, after, rfl, hbefore, hfound⟩
      · exact .inl (.pair htakes hword hrest)
      · exact .inr ⟨flag :: value :: before, word, after, rfl, .pair htakes hword hbefore, hfound⟩
  | case6 token rest hne htakes ih =>
      have hswitch : takesValue token = false := by simpa using htakes
      cases hflag : isFlag token with
      | false => exact .inr ⟨[], token, rest, rfl, .nil, by simpa using hne, hflag⟩
      | true =>
          rcases ih h with hrest | ⟨before, word, after, rfl, hbefore, hfound⟩
          · exact .inl (.switch hflag hswitch hrest)
          · exact .inr ⟨token :: before, word, after, rfl, .switch hflag hswitch hbefore, hfound⟩

theorem FlagBlocks.image_found {flags : List String} {word : String} (h : FlagBlocks flags)
    (hword : IsWord word) (tail : List String) :
    check (["run"] ++ flags ++ [word] ++ tail) = .ok () ∧
      image (["run"] ++ flags ++ [word] ++ tail) = .ok word := by
  rw [List.append_assoc, List.append_assoc]
  exact h.passes.image_found hword.1 hword.2 tail

/-- Flags that are accepted alone are accepted in front of every image. The image that is put behind
them is the one that is found, whatever it is, exactly when they have no word among them. -/
theorem check_run_of_checkFlags {flags : List String} (h : checkFlags flags = .ok ()) :
    (∀ word, IsWord word → ∀ tail, check (["run"] ++ flags ++ [word] ++ tail) = .ok ()) ∧
      (WordFree flags ↔
        ∀ word, IsWord word → ∀ tail, image (["run"] ++ flags ++ [word] ++ tail) = .ok word) := by
  rcases blocks_or_word_of_checkFlags h with hblocks | ⟨before, first, after, rfl, hbefore, hfirst⟩
  · exact ⟨fun word hword tail => (hblocks.image_found hword tail).1,
      iff_of_true hblocks.wordFree fun word hword tail => (hblocks.image_found hword tail).2⟩
  · -- the word among the flags is taken for the image, so two other images cannot both be found
    have hfound : ∀ word tail,
        check (["run"] ++ (before ++ first :: after) ++ [word] ++ tail) = .ok () ∧
          image (["run"] ++ (before ++ first :: after) ++ [word] ++ tail) = .ok first := by
      intro word tail
      simpa using hbefore.image_found hfirst (after ++ [word] ++ tail)
    refine ⟨fun word _ tail => (hfound word tail).1,
      iff_of_false (hbefore.not_wordFree_append hfirst after) fun himage => ?_⟩
    have halpine := (hfound "alpine" []).2.symm.trans (himage "alpine" (by decide) [])
    have hdebian := (hfound "debian" []).2.symm.trans (himage "debian" (by decide) [])
    rw [halpine] at hdebian
    exact absurd hdebian (by decide)

theorem check_run_of_checkFlags_network :
    (checkFlags ["--init", "-e", "", "--network", "host"] = .ok () ∧
      WordFree ["--init", "-e", "", "--network", "host"] ∧
      image ["run", "--init", "-e", "", "--network", "host", "alpine", "-w"] = .ok "alpine") ∧
    checkFlags ["--gpus", "all"] = .ok () ∧
      check ["run", "--gpus", "all", "alpine", "-w"] = .ok () ∧
      ¬ WordFree ["--gpus", "all"] := by
  have hblocks : FlagBlocks ["--init", "-e", "", "--network", "host"] :=
    .switch (by decide) (by decide) <| .pair (by decide) (by decide) <|
      .pair (by decide) (by decide) .nil
  have hflags : checkFlags ["--init", "-e", "", "--network", "host"] = .ok () := rfl
  have hgpus : checkFlags ["--gpus", "all"] = .ok () := rfl
  obtain ⟨-, hfree⟩ := check_run_of_checkFlags hflags
  obtain ⟨hcheck, hwords⟩ := check_run_of_checkFlags hgpus
  refine ⟨⟨hflags, hblocks.wordFree, hfree.1 hblocks.wordFree "alpine" (by decide) ["-w"]⟩, hgpus,
    hcheck "alpine" (by decide) ["-w"], fun hnone => ?_⟩
  exact absurd (hwords.1 hnone "alpine" (by decide) []) (by decide)

end Devcontainer.RunVector
