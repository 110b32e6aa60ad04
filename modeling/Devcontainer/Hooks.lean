import Devcontainer.Command

/-!
# Lifecycle hooks

The six moments in the life of a container at which a descriptor may run a command, in the order in
which they come, and the phases into which they fall.
-/

namespace Devcontainer

inductive Hook where
  | onInitialize | onCreate | onUpdateContent | postCreate | postStart | postAttach
deriving DecidableEq, Repr

namespace Hook

def all : List Hook :=
  [.onInitialize, .onCreate, .onUpdateContent, .postCreate, .postStart, .postAttach]

theorem mem_all (h : Hook) : h ∈ all := by
  cases h <;> simp [all]

def key : Hook → String
  | .onInitialize => "initializeCommand"
  | .onCreate => "onCreateCommand"
  | .onUpdateContent => "updateContentCommand"
  | .postCreate => "postCreateCommand"
  | .postStart => "postStartCommand"
  | .postAttach => "postAttachCommand"

def ofKey? (key : String) : Option Hook :=
  all.find? (·.key == key)

end Hook

structure Hooks where
  get : Hook → Option Command

namespace Hooks

@[ext] theorem ext {a b : Hooks} (h : ∀ hook, a.get hook = b.get hook) : a = b := by
  cases a; cases b; simp only [mk.injEq]; exact funext h

instance : DecidableEq Hooks := fun a b =>
  decidable_of_iff (∀ hook ∈ Hook.all, a.get hook = b.get hook)
    ⟨fun h => ext fun hook => h hook hook.mem_all, fun h _ _ => h ▸ rfl⟩

def empty : Hooks := ⟨fun _ => none⟩

instance : Inhabited Hooks := ⟨empty⟩

def set (hooks : Hooks) (hook : Hook) (command : Option Command) : Hooks :=
  ⟨fun h => if h = hook then command else hooks.get h⟩

/-- Each hook of `upper` that has a command takes the place of the one of `base`. -/
def overlay (base upper : Hooks) : Hooks :=
  ⟨fun h => (upper.get h).or (base.get h)⟩

def map (f : String → String) (hooks : Hooks) : Hooks :=
  ⟨fun h => (hooks.get h).map (·.map f)⟩

def mapM {m : Type → Type} [Monad m] (f : String → m String) (hooks : Hooks) : m Hooks :=
  Hook.all.foldlM
    (fun done hook => return done.set hook (← (hooks.get hook).mapM (Command.mapM f))) empty

def strings (hooks : Hooks) : List String :=
  Hook.all.flatMap fun h => ((hooks.get h).map Command.strings).getD []

def toMembers (hooks : Hooks) : List (String × Json) :=
  Hook.all.filterMap fun h => (hooks.get h).map fun c => (h.key, c.toJson)

end Hooks

inductive Phase where
  | create | start | attach | all
deriving DecidableEq, Repr

namespace Phase

def name : Phase → String
  | .create => "create"
  | .start => "start"
  | .attach => "attach"
  | .all => "all"

def hooks : Phase → List Hook
  | .create => [.onInitialize, .onCreate, .onUpdateContent, .postCreate]
  | .start => [.postStart]
  | .attach => [.postAttach]
  | .all => Hook.all

/-- The phase of a name; no name, or an empty one, means all phases. -/
def ofName? : Option String → Option Phase
  | none | some "" => some .all
  | some "create" => some .create
  | some "start" => some .start
  | some "attach" => some .attach
  | some _ => none

end Phase

end Devcontainer
