import Devcontainer.Launch
import Devcontainer.Proofs.RunVector

/-!
# The layout of an argument vector

The arguments of a launch are blocks one after another: a flag before each of some values, or a flag
that is there or not. A block ends where its flag does not come again, so blocks with different flags
can be told apart in what they come to, whatever their values look like, as long as none of the flags
stands right behind them.
-/

namespace Devcontainer

namespace Launch

inductive Block where
  /-- The flag before each of the values. -/
  | repeated (flag : String) (values : List String)
  /-- The flag itself, or nothing. -/
  | switch (flag : String) (on : Bool)

namespace Block

def flag : Block → String
  | repeated flag _ => flag
  | switch flag _ => flag

def tokens : Block → List String
  | repeated flag values => flagged flag values
  | switch flag on => if on then [flag] else []

@[simp] theorem tokens_repeated (flag : String) (values : List String) :
    (repeated flag values).tokens = flagged flag values := rfl

@[simp] theorem tokens_switch_true (flag : String) : (switch flag true).tokens = [flag] := rfl

@[simp] theorem tokens_switch_false (flag : String) : (switch flag false).tokens = [] := rfl

def emptied : Block → Block
  | repeated flag _ => repeated flag []
  | switch flag _ => switch flag false

@[simp] theorem flag_emptied (b : Block) : b.emptied.flag = b.flag := by
  cases b <;> rfl

/-- Whether a reader of flags goes past the block. -/
def Readable : Block → Prop
  | repeated flag values => RunVector.isFlag flag = true ∧ RunVector.takesValue flag = true ∧
      ∀ value ∈ values, RunVector.isFlag value = false
  | switch flag _ => RunVector.isFlag flag = true ∧ RunVector.takesValue flag = false

theorem Readable.passes {b : Block} (h : b.Readable) : RunVector.Passes b.tokens := by
  cases b with
  | repeated flag values =>
      obtain ⟨hflag, htakes, hvalues⟩ := h
      exact RunVector.passes_flatMap fun value hvalue =>
        RunVector.passes_pair hflag htakes (hvalues value hvalue)
  | switch flag on =>
      obtain ⟨hflag, hswitch⟩ := h
      cases on with
      | true => exact RunVector.passes_switch hflag hswitch
      | false => exact RunVector.passes_nil

theorem head?_tokens_append {b : Block} {rest : List String} {token : String}
    (h : (b.tokens ++ rest).head? = some token) : token = b.flag ∨ rest.head? = some token := by
  cases b with
  | repeated flag values =>
      cases values with
      | nil => exact .inr h
      | cons value values => exact .inl (Option.some.inj h).symm
  | switch flag on =>
      cases on with
      | true => exact .inl (Option.some.inj h).symm
      | false => exact .inr h

end Block

theorem flagged_append_inj {flag : String} {values values' rest rest' : List String}
    (hrest : rest.head? ≠ some flag) (hrest' : rest'.head? ≠ some flag)
    (h : flagged flag values ++ rest = flagged flag values' ++ rest') :
    values = values' ∧ rest = rest' := by
  induction values generalizing values' with
  | nil =>
      cases values' with
      | nil => exact ⟨rfl, h⟩
      | cons value' values' => exact absurd (congrArg List.head? h) hrest
  | cons value values ih =>
      cases values' with
      | nil => exact absurd (congrArg List.head? h).symm hrest'
      | cons value' values' =>
          -- both start with the flag, a value, and what is left of the block
          obtain ⟨-, htail⟩ := List.cons.inj h
          obtain ⟨hvalue, htail⟩ := List.cons.inj htail
          obtain ⟨hvalues, htail⟩ := ih htail
          exact ⟨by rw [hvalue, hvalues], htail⟩

theorem Block.tokens_append_inj {b b' : Block} (hsame : b.emptied = b'.emptied)
    {rest rest' : List String} (hrest : rest.head? ≠ some b.flag)
    (hrest' : rest'.head? ≠ some b.flag) (h : b.tokens ++ rest = b'.tokens ++ rest') :
    b = b' ∧ rest = rest' := by
  cases b with
  | repeated flag values =>
      cases b' with
      | switch => cases hsame
      | repeated flag' values' =>
          cases hsame
          rw [tokens_repeated, tokens_repeated] at h
          obtain ⟨rfl, htail⟩ := flagged_append_inj hrest hrest' h
          exact ⟨rfl, htail⟩
  | switch flag on =>
      cases b' with
      | repeated => cases hsame
      | switch flag' on' =>
          cases hsame
          cases on with
          | true =>
              rw [tokens_switch_true, List.singleton_append] at h
              cases on' with
              | true => exact ⟨rfl, (List.cons.inj h).2⟩
              | false =>
                  rw [tokens_switch_false, List.nil_append] at h
                  exact absurd (congrArg List.head? h).symm hrest'
          | false =>
              rw [tokens_switch_false, List.nil_append] at h
              cases on' with
              | true => exact absurd (congrArg List.head? h) hrest
              | false => exact ⟨rfl, h⟩

def layout (blocks : List Block) : List String :=
  blocks.flatMap Block.tokens

theorem layout_append (blocks blocks' : List Block) :
    layout (blocks ++ blocks') = layout blocks ++ layout blocks' :=
  List.flatMap_append

theorem passes_layout {blocks : List Block} (h : ∀ b ∈ blocks, b.Readable) :
    RunVector.Passes (layout blocks) :=
  RunVector.passes_flatMap fun b hb => (h b hb).passes

theorem head?_layout_append {blocks : List Block} {rest : List String} {token : String}
    (h : (layout blocks ++ rest).head? = some token) :
    token ∈ blocks.map Block.flag ∨ rest.head? = some token := by
  induction blocks with
  | nil => exact .inr h
  | cons b blocks ih =>
      rw [layout, List.flatMap_cons, List.append_assoc] at h
      rcases Block.head?_tokens_append h with rfl | h
      · exact .inl (List.mem_cons_self ..)
      · exact (ih h).imp (List.mem_cons_of_mem _) id

theorem map_flag_of_map_emptied {blocks blocks' : List Block}
    (h : blocks.map Block.emptied = blocks'.map Block.emptied) :
    blocks.map Block.flag = blocks'.map Block.flag := by
  have hflags := congrArg (List.map Block.flag) h
  simpa [List.map_map, Function.comp_def] using hflags

/-- Blocks with different flags are known from what they come to, where none of the flags follows. -/
theorem layout_append_inj {blocks blocks' : List Block}
    (hsame : blocks.map Block.emptied = blocks'.map Block.emptied)
    (hflags : (blocks.map Block.flag).Nodup) {rest rest' : List String}
    (hrest : ∀ flag ∈ blocks.map Block.flag, rest.head? ≠ some flag)
    (hrest' : ∀ flag ∈ blocks.map Block.flag, rest'.head? ≠ some flag)
    (h : layout blocks ++ rest = layout blocks' ++ rest') : blocks = blocks' ∧ rest = rest' := by
  induction blocks generalizing blocks' with
  | nil =>
      rw [List.map_eq_nil_iff.1 hsame.symm] at h ⊢
      exact ⟨rfl, h⟩
  | cons b blocks ih =>
      cases blocks' with
      | nil => cases hsame
      | cons b' blocks' =>
          obtain ⟨hb, hblocks⟩ := List.cons.inj hsame
          obtain ⟨hnot, hflags⟩ := List.nodup_cons.1 hflags
          have hself : b.flag ∈ (b :: blocks).map Block.flag := List.mem_cons_self ..
          -- behind the first block stand the others, with their own flags, and then the rest
          have hfirst : (layout blocks ++ rest).head? ≠ some b.flag := fun hhead =>
            (head?_layout_append hhead).elim hnot (hrest _ hself)
          have hfirst' : (layout blocks' ++ rest').head? ≠ some b.flag := fun hhead =>
            (head?_layout_append hhead).elim (map_flag_of_map_emptied hblocks ▸ hnot)
              (hrest' _ hself)
          rw [layout, layout, List.flatMap_cons, List.flatMap_cons, List.append_assoc,
            List.append_assoc] at h
          obtain ⟨rfl, htail⟩ := Block.tokens_append_inj hb hfirst hfirst' h
          obtain ⟨rfl, hend⟩ := ih hblocks hflags
            (fun flag hflag => hrest flag (List.mem_cons_of_mem _ hflag))
            (fun flag hflag => hrest' flag (List.mem_cons_of_mem _ hflag)) htail
          exact ⟨rfl, hend⟩

end Launch

end Devcontainer
