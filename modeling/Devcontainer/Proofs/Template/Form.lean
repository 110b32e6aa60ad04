import Devcontainer.Template
import Devcontainer.Proofs.Text.Replace
import Mathlib.Data.List.Basic

/-!
# Replacing the names of the workspace

A name of the workspace is written in two forms. Replacing the forms one after another is the same
as filling all of them at once, in a text cut into atoms: the forms, openings of references, and
single characters other than `$`. The order matters where one form stands at the head of another.
-/

namespace Devcontainer.Template

open Text

inductive WellKnown where
  | containerBasename
  | localBasename
  | containerFolder
  | localFolder
deriving DecidableEq, Repr

namespace WellKnown

def name : WellKnown → String
  | containerBasename => "containerWorkspaceFolderBasename"
  | localBasename => "localWorkspaceFolderBasename"
  | containerFolder => "containerWorkspaceFolder"
  | localFolder => "localWorkspaceFolder"

def value (c : Context) : WellKnown → List Char
  | containerBasename => c.containerBasename.toList
  | localBasename => c.localBasename.toList
  | containerFolder => c.containerFolder.toList
  | localFolder => c.localFolder.toList

end WellKnown

def Lacks (c : Context) (ch : Char) : Prop :=
  ∀ w : WellKnown, ch ∉ w.value c

structure Form where
  name : WellKnown
  braces : Bool
deriving DecidableEq, Repr

namespace Form

def written (f : Form) : List Char :=
  if f.braces then braced f.name.name else bare f.name.name

def token (c : Context) (f : Form) : Token :=
  ⟨f.written, f.name.name, String.ofList (f.name.value c)⟩

def all : List Form :=
  [.containerBasename, .localBasename, .containerFolder, .localFolder].flatMap fun w =>
    [⟨w, true⟩, ⟨w, false⟩]

/-- Replacing `f` leaves `g` alone: `f` is not at the head of `g`, and where `g` is at the head of
`f`, it has no braces and the next character of `f` is a letter. -/
def Spares (f g : Form) : Prop :=
  ¬ f.written <+: g.written ∧ (g.written <+: f.written → g.braces = false ∧
    (f.written.drop g.written.length).head?.all Char.isAlpha = true)

instance (f g : Form) : Decidable (f.Spares g) :=
  inferInstanceAs (Decidable (_ ∧ _))

theorem pairwise_spares_all : all.Pairwise Spares := by decide

theorem mem_all (f : Form) : f ∈ all := by
  obtain ⟨w, b⟩ := f
  cases w <;> cases b <;> decide

theorem not_prefix_opening (f : Form) : ¬ f.written <+: opening ∧ ¬ opening <+: f.written := by
  have hall : ∀ g ∈ all, ¬ g.written <+: opening ∧ ¬ opening <+: g.written := by decide
  exact hall f f.mem_all

theorem written_eq_cons (f : Form) : ∃ body, f.written = '$' :: body ∧ '$' ∉ body := by
  have hall : ∀ g ∈ all, g.written.head? = some '$' ∧ '$' ∉ g.written.tail := by decide
  obtain ⟨hhead, htail⟩ := hall f f.mem_all
  obtain ⟨body, hbody⟩ := List.head?_eq_some_iff.1 hhead
  rw [hbody] at htail
  exact ⟨body, hbody, htail⟩

theorem written_ne_nil (f : Form) : f.written ≠ [] := by
  obtain ⟨body, hf, -⟩ := f.written_eq_cons
  rw [hf]
  exact List.cons_ne_nil _ _

end Form

theorem opening_eq_cons : ∃ body, opening = '$' :: body ∧ '$' ∉ body :=
  ⟨opening.tail, by decide, by decide⟩

theorem tokens_eq (c : Context) : tokens c = Form.all.map (Form.token c) := by
  unfold tokens Context.wellKnown Form.all
  simp [Form.token, Form.written, WellKnown.name, WellKnown.value]

/-- What the replacement of forms looks at in a text. -/
inductive Atom where
  | char (c : Char)
  | form (f : Form)
  | opening
deriving DecidableEq, Repr

namespace Atom

def written : Atom → List Char
  | char c => [c]
  | form f => f.written
  | opening => Template.opening

def filled (c : Context) : Atom → List Char
  | char ch => [ch]
  | form f => f.name.value c
  | opening => Template.opening

def fill (f : Form) (value : List Char) : Atom → List Atom
  | form g => if g = f then value.map char else [form g]
  | a => [a]

@[simp] theorem fill_char (f : Form) (value : List Char) (c : Char) :
    fill f value (char c) = [char c] := rfl

theorem fill_same (f : Form) (value : List Char) : fill f value (form f) = value.map char :=
  if_pos rfl

theorem fill_other {f g : Form} (value : List Char) (h : g ≠ f) :
    fill f value (form g) = [form g] := if_neg h

end Atom

/-- Atoms that cannot be misread: `$` is no character of its own, and a form without braces is
followed by nothing or by a character that is no letter. -/
def Apart : List Atom → Prop
  | [] => True
  | .char c :: rest => c ≠ '$' ∧ Apart rest
  | .form f :: rest =>
    (f.braces = false → ∀ a ∈ rest.head?, ∃ c, a = .char c ∧ c.isAlpha = false) ∧ Apart rest
  | .opening :: rest => Apart rest

theorem written_map_char (text : List Char) : (text.map Atom.char).flatMap Atom.written = text := by
  rw [List.flatMap_map]
  exact List.flatMap_singleton' text

theorem filled_map_char (c : Context) (text : List Char) :
    (text.map Atom.char).flatMap (Atom.filled c) = text := by
  rw [List.flatMap_map]
  exact List.flatMap_singleton' text

/-- Atoms that are read alike whatever stands behind them. -/
def Atom.Closed : Atom → Prop
  | .char c => c ≠ '$'
  | .form f => f.braces = true
  | .opening => True

theorem closed_map_char {text : List Char} (h : '$' ∉ text) :
    ∀ a ∈ text.map Atom.char, a.Closed := by
  intro a ha
  obtain ⟨c, hc, rfl⟩ := List.mem_map.1 ha
  exact fun heq => h (heq ▸ hc)

theorem apart_append {atoms rest : List Atom} (hatoms : ∀ a ∈ atoms, a.Closed)
    (hrest : Apart rest) : Apart (atoms ++ rest) := by
  induction atoms with
  | nil => exact hrest
  | cons a atoms ih =>
      have ha := hatoms a (List.mem_cons_self ..)
      have happend := ih fun b hb => hatoms b (List.mem_cons_of_mem _ hb)
      cases a with
      | char c => exact ⟨ha, happend⟩
      | opening => exact happend
      | form f =>
          refine ⟨fun hb => ?_, happend⟩
          rw [show f.braces = true from ha] at hb
          cases hb

/-! ## One form -/

theorem apart_fill {f : Form} {value : List Char} (hvalue : '$' ∉ value) {atoms : List Atom}
    (h : Apart atoms) : Apart (atoms.flatMap (Atom.fill f value)) := by
  induction atoms with
  | nil => trivial
  | cons a atoms ih =>
      rw [List.flatMap_cons]
      cases a with
      | char c => exact ⟨h.1, ih h.2⟩
      | opening => exact ih h
      | form g =>
          by_cases hg : g = f
          · rw [hg, Atom.fill_same]
            exact apart_append (closed_map_char hvalue) (ih h.2)
          · rw [Atom.fill_other value hg]
            refine ⟨fun hb a ha => ?_, ih h.2⟩
            -- a character behind the form stays where it is
            cases atoms with
            | nil => cases ha
            | cons b atoms =>
                obtain ⟨c, rfl, hc⟩ := h.1 hb b rfl
                rw [List.flatMap_cons, Atom.fill_char] at ha
                exact ⟨c, (Option.some.inj ha).symm, hc⟩

/-- A form is not read into another one that it spares, whatever may follow that one. -/
theorem not_prefix_of_spares {f g : Form} (h : f.Spares g) {rest : List Atom}
    (hrest : g.braces = false → ∀ a ∈ rest.head?, ∃ c, a = .char c ∧ c.isAlpha = false) :
    ¬ f.written <+: g.written ++ rest.flatMap Atom.written := by
  by_cases hg : g.written <+: f.written
  · obtain ⟨hb, hletter⟩ := h.2 hg
    obtain ⟨more, hmore⟩ := hg
    rw [← hmore, List.drop_left] at hletter
    intro hp
    rw [← hmore, List.prefix_append_right_inj] at hp
    cases more with
    | nil =>
        rw [List.append_nil] at hmore
        exact h.1 (hmore ▸ List.prefix_rfl)
    | cons m more =>
        cases rest with
        | nil => exact List.cons_ne_nil _ _ (List.prefix_nil.1 hp)
        | cons a rest =>
            obtain ⟨c, rfl, hc⟩ := hrest hb a rfl
            have hmc : m = c := (List.cons_prefix_cons.1 hp).1
            rw [List.head?_cons, Option.all_some, hmc, hc] at hletter
            cases hletter
  · exact not_prefix_append _ h.1 hg

theorem replaceAll_form_append_of_not_mem (f : Form) (value rest : List Char) {head : List Char}
    (h : '$' ∉ head) :
    replaceAll f.written value (head ++ rest) = head ++ replaceAll f.written value rest := by
  obtain ⟨body, hf, -⟩ := f.written_eq_cons
  rw [hf]
  exact replaceAll_append_of_not_mem value rest h

theorem replaceAll_append_of_not_head {f : Form} (value : List Char) {head rest : List Char}
    (hhead : ∃ body, head = '$' :: body ∧ '$' ∉ body) (h : ¬ f.written <+: head ++ rest) :
    replaceAll f.written value (head ++ rest) = head ++ replaceAll f.written value rest := by
  obtain ⟨body, rfl, hbody⟩ := hhead
  rw [List.cons_append] at h ⊢
  rw [replaceAll_cons_of_not_head value f.written_ne_nil h,
    replaceAll_form_append_of_not_mem f value rest hbody, List.cons_append]

theorem replaceAll_written {f : Form} (value : List Char) {atoms : List Atom} (hapart : Apart atoms)
    (hspares : ∀ g, .form g ∈ atoms → g = f ∨ f.Spares g) :
    replaceAll f.written value (atoms.flatMap Atom.written) =
      (atoms.flatMap (Atom.fill f value)).flatMap Atom.written := by
  induction atoms with
  | nil => exact replaceAll_nil value f.written_ne_nil
  | cons a atoms ih =>
      have htail : ∀ g, .form g ∈ atoms → g = f ∨ f.Spares g := fun g hg =>
        hspares g (List.mem_cons_of_mem _ hg)
      rw [List.flatMap_cons, List.flatMap_cons, List.flatMap_append]
      cases a with
      | char c =>
          have hc : '$' ∉ [c] := fun hmem => hapart.1 (List.mem_singleton.1 hmem).symm
          rw [Atom.written, replaceAll_form_append_of_not_mem f value _ hc, ih hapart.2 htail]
          rfl
      | opening =>
          have hopening : ¬ f.written <+: opening ++ atoms.flatMap Atom.written :=
            not_prefix_append _ f.not_prefix_opening.1 f.not_prefix_opening.2
          rw [Atom.written, replaceAll_append_of_not_head value opening_eq_cons hopening,
            ih hapart htail]
          rfl
      | form g =>
          rcases hspares g (List.mem_cons_self ..) with rfl | hg
          · rw [Atom.written, replaceAll_token_append value _ g.written_ne_nil, ih hapart.2 htail,
              Atom.fill_same, written_map_char]
          · have hgf : g ≠ f := fun heq => hg.1 (heq ▸ List.prefix_rfl)
            rw [Atom.written,
              replaceAll_append_of_not_head value g.written_eq_cons
                (not_prefix_of_spares hg hapart.1),
              ih hapart.2 htail, Atom.fill_other value hgf]
            simp [Atom.written]

/-! ## All forms -/

theorem replaceTokens_cons (c : Context) (f : Form) (fs : List Form) (text : List Char) :
    replaceTokens ((f :: fs).map (Form.token c)) text =
      replaceTokens (fs.map (Form.token c)) (replaceAll f.written (f.name.value c) text) := by
  rw [List.map_cons, replaceTokens, Form.token, String.toList_ofList]

theorem filled_fill (c : Context) (f : Form) (atoms : List Atom) :
    (atoms.flatMap (Atom.fill f (f.name.value c))).flatMap (Atom.filled c) =
      atoms.flatMap (Atom.filled c) := by
  rw [List.flatMap_assoc]
  congr 1
  funext a
  cases a with
  | char ch => rfl
  | opening => rfl
  | form g =>
      by_cases hg : g = f
      · rw [hg, Atom.fill_same, filled_map_char]
        rfl
      · rw [Atom.fill_other _ hg]
        simp

theorem form_mem_of_mem_fill {f g : Form} {value : List Char} {atoms : List Atom}
    (h : .form g ∈ atoms.flatMap (Atom.fill f value)) : .form g ∈ atoms ∧ g ≠ f := by
  obtain ⟨a, ha, hg⟩ := List.mem_flatMap.1 h
  cases a with
  | char c => cases List.mem_singleton.1 hg
  | opening => cases List.mem_singleton.1 hg
  | form g' =>
      by_cases hf : g' = f
      · rw [hf, Atom.fill_same] at hg
        obtain ⟨c, -, hc⟩ := List.mem_map.1 hg
        cases hc
      · rw [Atom.fill_other value hf] at hg
        cases List.mem_singleton.1 hg
        exact ⟨ha, hf⟩

/-- Replacing forms one after another fills all of them at once. -/
theorem replaceTokens_written {c : Context} (hc : Lacks c '$') {fs : List Form}
    (hfs : fs.Pairwise Form.Spares) {atoms : List Atom} (hapart : Apart atoms)
    (hforms : ∀ g, .form g ∈ atoms → g ∈ fs) :
    replaceTokens (fs.map (Form.token c)) (atoms.flatMap Atom.written) =
      atoms.flatMap (Atom.filled c) := by
  induction fs generalizing atoms with
  | nil =>
      rw [List.map_nil, replaceTokens]
      apply List.flatMap_congr
      intro a ha
      cases a with
      | char ch => rfl
      | opening => rfl
      | form g => exact absurd (hforms g ha) List.not_mem_nil
  | cons f fs ih =>
      obtain ⟨hf, hfs⟩ := List.pairwise_cons.1 hfs
      have hspares : ∀ g, .form g ∈ atoms → g = f ∨ f.Spares g := fun g hg =>
        (List.mem_cons.1 (hforms g hg)).imp id (hf g)
      have hrest : ∀ g, .form g ∈ atoms.flatMap (Atom.fill f (f.name.value c)) → g ∈ fs := by
        intro g hg
        obtain ⟨hmem, hne⟩ := form_mem_of_mem_fill hg
        exact (List.mem_cons.1 (hforms g hmem)).resolve_left hne
      have hfilled : Apart (atoms.flatMap (Atom.fill f (f.name.value c))) :=
        apart_fill (hc f.name) hapart
      rw [replaceTokens_cons, replaceAll_written _ hapart hspares, ih hfs hfilled hrest, filled_fill]

theorem replaceTokens_tokens {c : Context} (hc : Lacks c '$') {atoms : List Atom}
    (hapart : Apart atoms) :
    replaceTokens (tokens c) (atoms.flatMap Atom.written) = atoms.flatMap (Atom.filled c) := by
  rw [tokens_eq]
  exact replaceTokens_written hc Form.pairwise_spares_all hapart fun g _ => g.mem_all

/-! ## Texts of another kind -/

theorem replaceTokens_append (ts us : List Token) (text : List Char) :
    replaceTokens (ts ++ us) text = replaceTokens us (replaceTokens ts text) := by
  induction ts generalizing text with
  | nil => rfl
  | cons t ts ih =>
      rw [List.cons_append, replaceTokens, replaceTokens]
      exact ih _

theorem replaceTokens_nil (c : Context) (fs : List Form) :
    replaceTokens (fs.map (Form.token c)) [] = [] := by
  induction fs with
  | nil => rfl
  | cons f fs ih => rw [replaceTokens_cons, replaceAll_nil _ f.written_ne_nil, ih]

theorem replaceTokens_append_of_not_mem {c : Context} (fs : List Form) {head : List Char}
    (h : '$' ∉ head) (rest : List Char) :
    replaceTokens (fs.map (Form.token c)) (head ++ rest) =
      head ++ replaceTokens (fs.map (Form.token c)) rest := by
  induction fs generalizing rest with
  | nil => rfl
  | cons f fs ih =>
      rw [replaceTokens_cons, replaceTokens_cons, replaceAll_form_append_of_not_mem f _ rest h, ih]

theorem not_mem_replaceTokens {c : Context} {x : Char} (hc : Lacks c x) (fs : List Form)
    {text : List Char} (h : x ∉ text) : x ∉ replaceTokens (fs.map (Form.token c)) text := by
  induction fs generalizing text with
  | nil => exact h
  | cons f fs ih =>
      rw [replaceTokens_cons]
      exact ih fun hmem => (mem_replaceAll f.written_ne_nil hmem).elim h (hc f.name)

theorem replaceTokens_of_spares {c : Context} {fs : List Form} {g : Form}
    (h : ∀ f ∈ fs, f.Spares g) : replaceTokens (fs.map (Form.token c)) g.written = g.written := by
  induction fs with
  | nil => rfl
  | cons f fs ih =>
      have hspares := h f (List.mem_cons_self ..)
      have hhead : ¬ f.written <+: g.written ++ [] := by
        rw [List.append_nil]
        exact hspares.1
      have hkept := replaceAll_append_of_not_head (f.name.value c) g.written_eq_cons hhead
      rw [List.append_nil, replaceAll_nil _ f.written_ne_nil, List.append_nil] at hkept
      rw [replaceTokens_cons, hkept]
      exact ih fun f' hf' => h f' (List.mem_cons_of_mem _ hf')

/-- A form that stands alone is replaced by its value, in which the forms behind it are replaced. -/
theorem replaceTokens_form (c : Context) {before after : List Form} {g : Form}
    (h : Form.all = before ++ g :: after) : replaceTokens (tokens c) g.written =
      replaceTokens (after.map (Form.token c)) (g.name.value c) := by
  have hspares : ∀ f ∈ before, f.Spares g := by
    have hpairs := Form.pairwise_spares_all
    rw [h, List.pairwise_append] at hpairs
    exact fun f hf => hpairs.2.2 f hf g (List.mem_cons_self ..)
  have hvalue := replaceAll_token_append (g.name.value c) [] g.written_ne_nil
  rw [List.append_nil, replaceAll_nil _ g.written_ne_nil, List.append_nil] at hvalue
  rw [tokens_eq, h, List.map_append, replaceTokens_append, replaceTokens_of_spares hspares,
    replaceTokens_cons, hvalue]

end Devcontainer.Template
