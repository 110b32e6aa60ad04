import Devcontainer.Hooks
import Devcontainer.Mount.Spec
import Devcontainer.Proofs.OrderedMap
import Mathlib.Data.List.Basic

/-!
# Visiting strings in order

A traversal runs one action on string after string and carries a state along. When the action puts in
a text that does not depend on the state, the traversal comes to what a plain map makes of the same
strings, and the state has moved on over each of them once, in their order.
-/

namespace Devcontainer

variable {σ α β : Type}

def visit (text : String → String) (step : σ → String → σ) (s : String) : StateM σ String :=
  modifyGet fun state => (text s, step state s)

/-- From every state, `x` comes to `a` and moves on over `visited`. -/
def Visits (step : σ → String → σ) (x : StateM σ α) (a : α) (visited : List String) : Prop :=
  ∀ state, x.run state = (a, visited.foldl step state)

namespace Visits

variable {step : σ → String → σ}

theorem pure (a : α) : Visits step (Pure.pure a) a [] := by
  intro state
  rfl

theorem bind {x : StateM σ α} {k : α → StateM σ β} {a : α} {b : β} {before after : List String}
    (hx : Visits step x a before) (hk : Visits step (k a) b after) :
    Visits step (x >>= k) b (before ++ after) := by
  intro state
  have hrun : (x >>= k).run state = (k (x.run state).1).run (x.run state).2 := rfl
  rw [hrun, hx state, List.foldl_append]
  exact hk _

theorem bind_pure {x : StateM σ α} {a : α} {visited : List String} (hx : Visits step x a visited)
    (f : α → β) : Visits step (x >>= fun a => Pure.pure (f a)) (f a) visited := by
  rw [← List.append_nil visited]
  exact hx.bind (pure (f a))

theorem single (text : String → String) (s : String) :
    Visits step (visit text step s) (text s) [s] := by
  intro state
  rfl

/-! ## Options, lists and maps -/

theorem mapM_option {f : α → StateM σ β} {g : α → β} {strings : α → List String} {o : Option α}
    (h : ∀ a ∈ o, Visits step (f a) (g a) (strings a)) :
    Visits step (o.mapM f) (o.map g) ((o.map strings).getD []) := by
  cases o with
  | none => exact pure _
  | some a => exact (h a rfl).bind_pure some

theorem mapM_list {f : α → StateM σ β} {g : α → β} {strings : α → List String} {as : List α}
    (h : ∀ a ∈ as, Visits step (f a) (g a) (strings a)) :
    Visits step (as.mapM f) (as.map g) (as.flatMap strings) := by
  induction as with
  | nil =>
      rw [List.mapM_nil]
      exact pure _
  | cons a as ih =>
      have hhead := h a (List.mem_cons_self ..)
      have htail := ih fun b hb => h b (List.mem_cons_of_mem _ hb)
      rw [List.mapM_cons]
      exact hhead.bind (htail.bind_pure _)

theorem mapM_orderedMap {f : α → StateM σ β} {g : α → β} {strings : α → List String}
    {m : OrderedMap α} (h : ∀ a ∈ m.values, Visits step (f a) (g a) (strings a)) :
    Visits step (m.mapM f) (m.map g) (m.values.flatMap strings) := by
  have hentries : Visits step
      (m.entries.mapM fun entry => do return (entry.1, ← f entry.2))
      (m.entries.map fun entry => (entry.1, g entry.2))
      (m.entries.flatMap fun entry => strings entry.2) := by
    refine mapM_list fun entry hentry => ?_
    exact (h entry.2 (List.mem_map_of_mem hentry)).bind_pure _
  have hmap : OrderedMap.ofList (m.entries.map fun entry => (entry.1, g entry.2)) = m.map g :=
    OrderedMap.ofList_entries (m.map g)
  rw [OrderedMap.values, List.flatMap_map, ← hmap]
  exact hentries.bind_pure _

/-! ## The strings of mounts, commands and hooks -/

variable (text : String → String)

theorem mapM_text (o : Option String) :
    Visits step (o.mapM (visit text step)) (o.map text) o.toList := by
  have h : Visits step (o.mapM (visit text step)) (o.map text) ((o.map fun s => [s]).getD []) :=
    mapM_option fun s _ => single text s
  cases o <;> exact h

theorem mapM_texts (ss : List String) :
    Visits step (ss.mapM (visit text step)) (ss.map text) ss := by
  have h : Visits step (ss.mapM (visit text step)) (ss.map text) (ss.flatMap fun s => [s]) :=
    mapM_list fun s _ => single text s
  rwa [List.flatMap_singleton'] at h

theorem mapM_mount (spec : Mount.Spec) :
    Visits step (spec.mapM (visit text step)) (spec.map text) spec.strings := by
  cases spec with
  | text s => exact (single text s).bind_pure _
  | fields given =>
      have hfields : Visits step (given.mapM (visit text step)) (given.map text) given.strings :=
        (mapM_text text given.source).bind ((mapM_text text given.target).bind_pure _)
      exact hfields.bind_pure _

mutual

theorem mapM_command (command : Command) :
    Visits step (command.mapM (visit text step)) (command.map text) command.strings := by
  cases command with
  | shell line =>
      rw [Command.mapM, Command.map, Command.strings]
      exact (single text line).bind_pure _
  | args words =>
      rw [Command.mapM, Command.map, Command.strings]
      exact (mapM_texts text words).bind_pure _
  | steps named =>
      rw [Command.mapM, Command.map, Command.strings]
      exact (mapStepsM_command named).bind_pure _

theorem mapStepsM_command (named : List (String × Command)) :
    Visits step (Command.mapStepsM (visit text step) named) (Command.mapSteps text named)
      (Command.stringsOfSteps named) := by
  cases named with
  | nil =>
      rw [Command.mapStepsM, Command.mapSteps, Command.stringsOfSteps]
      exact pure _
  | cons head rest =>
      obtain ⟨name, command⟩ := head
      rw [Command.mapStepsM, Command.mapSteps, Command.stringsOfSteps]
      exact (mapM_command command).bind ((mapStepsM_command rest).bind_pure _)

end

/-- The moments that a fold over hooks has passed have their new commands, all others the ones with
which it began. -/
theorem foldlM_hooks (hooks : Hooks) (moments : List Hook) (done : Hooks) :
    Visits step
      (moments.foldlM (fun done hook => do
        return done.set hook (← (hooks.get hook).mapM (Command.mapM (visit text step)))) done)
      ⟨fun h => if h ∈ moments then (hooks.get h).map (Command.map text) else done.get h⟩
      (moments.flatMap fun h => ((hooks.get h).map Command.strings).getD []) := by
  induction moments generalizing done with
  | nil =>
      rw [List.foldlM_nil]
      exact pure _
  | cons hook moments ih =>
      have hcommand : Visits step
          ((hooks.get hook).mapM (Command.mapM (visit text step)))
          ((hooks.get hook).map (Command.map text))
          (((hooks.get hook).map Command.strings).getD []) :=
        mapM_option fun command _ => mapM_command text command
      have hset : (⟨fun h => if h ∈ hook :: moments then (hooks.get h).map (Command.map text)
          else done.get h⟩ : Hooks) =
          ⟨fun h => if h ∈ moments then (hooks.get h).map (Command.map text)
            else (done.set hook ((hooks.get hook).map (Command.map text))).get h⟩ := by
        ext1 h
        by_cases hh : h = hook <;> by_cases hm : h ∈ moments <;> simp [Hooks.set, hh, hm]
      rw [List.foldlM_cons, List.flatMap_cons, hset]
      exact bind (hcommand.bind_pure _) (ih _)

theorem mapM_hooks (hooks : Hooks) :
    Visits step (hooks.mapM (visit text step)) (hooks.map text) hooks.strings := by
  have hmap : hooks.map text =
      ⟨fun h => if h ∈ Hook.all then (hooks.get h).map (Command.map text)
        else Hooks.empty.get h⟩ := by
    ext1 h
    exact (if_pos h.mem_all).symm
  rw [hmap]
  exact foldlM_hooks text hooks Hook.all Hooks.empty

end Visits

end Devcontainer
