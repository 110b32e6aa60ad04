import Devcontainer.Proofs.Descriptor.Expand
import Devcontainer.Proofs.Template.Expand

/-!
# What an expansion reads of the host

A scan looks up the names of the references that it finds, and each of them can be read off the text:
it stands between an opening and the colon or closing brace that comes next. The rest of the host's
environment has no say in what a template comes to, nor a descriptor.
-/

namespace Devcontainer

namespace Template

/-- The name stands in the text between the opening of a reference and the colon or closing brace
that comes next. -/
def Mentions (text name : List Char) : Prop :=
  name ≠ [] ∧ (∀ c ∈ name, c ≠ '\x7d' ∧ c ≠ ':') ∧
    ∃ before stop after, text = before ++ opening ++ name ++ stop :: after ∧
      (stop = '\x7d' ∨ stop = ':')

/-- The template mentions the name when the names of the workspace have been replaced in it. -/
def Asks (c : Context) (template name : String) : Prop :=
  Mentions (replaceTokens (tokens c) template.toList) name.toList

theorem mentions_of_mem_pieces {text : List Char} {r : Reference}
    (h : .reference r ∈ pieces text) : Mentions text r.name := by
  have hwell : r.WellFormed := wellFormed_of_mem_pieces h
  obtain ⟨before, after, htext⟩ := exists_append_of_mem_pieces h
  refine ⟨hwell.name_ne, hwell.name, before, ?_⟩
  -- a default, if there is one, stands behind a colon
  cases hdefault : r.default? with
  | none =>
      refine ⟨'\x7d', after, ?_, Or.inl rfl⟩
      simp [htext, Piece.written, Reference.written, hdefault]
  | some d =>
      refine ⟨':', d ++ '\x7d' :: after, ?_, Or.inr rfl⟩
      simp [htext, Piece.written, Reference.written, hdefault]

theorem asks_of_mem_piecesOf {c : Context} {template : String} {r : Reference}
    (h : .reference r ∈ piecesOf c template) : Asks c template (String.ofList r.name) := by
  rw [Asks, String.toList_ofList]
  exact mentions_of_mem_pieces h

/-! ## Two hosts -/

theorem tokens_congr {c c' : Context} (h : c.wellKnown = c'.wellKnown) : tokens c = tokens c' := by
  rw [tokens, tokens, h]

theorem Reference.value?_congr {env env' : String → Option String} {r : Reference}
    (h : env (String.ofList r.name) = env' (String.ofList r.name)) : r.value? env = r.value? env' := by
  rw [value?, value?, h]

theorem Piece.congr {env env' : String → Option String} (p : Piece)
    (h : ∀ r, p = .reference r → env (String.ofList r.name) = env' (String.ofList r.name)) :
    p.text env = p.text env' ∧ p.replacement? env = p.replacement? env' ∧
      p.missing? env = p.missing? env' := by
  cases p with
  | char c => exact ⟨rfl, rfl, rfl⟩
  | reference r =>
      have hvalue := Reference.value?_congr (h r rfl)
      refine ⟨?_, ?_, ?_⟩
      · rw [text, text, hvalue]
      · rw [replacement?, replacement?, hvalue]
      · rw [missing?, missing?, hvalue]

theorem expand_congr {c c' : Context} (hworkspace : c.wellKnown = c'.wellKnown) {template : String}
    (henv : ∀ name, Asks c template name → c.env name = c'.env name) :
    expand c template = expand c' template := by
  have hpieces : ∀ p ∈ pieces (replaceTokens (tokens c) template.toList),
      p.text c.env = p.text c'.env ∧ p.replacement? c.env = p.replacement? c'.env ∧
        p.missing? c.env = p.missing? c'.env := by
    intro p hp
    refine p.congr fun r hr => henv _ (asks_of_mem_piecesOf ?_)
    exact hr ▸ hp
  have htext := List.flatMap_congr fun p hp => (hpieces p hp).1
  have hreplacements := List.filterMap_congr fun p hp => (hpieces p hp).2.1
  have hmissing := List.filterMap_congr fun p hp => (hpieces p hp).2.2
  simp only [expand, ← tokens_congr hworkspace, htext, hreplacements, hmissing]

end Template

theorem Report.ofTemplates_congr {c c' : Context} {templates : List String}
    (h : ∀ template ∈ templates, Template.expand c template = Template.expand c' template) :
    ofTemplates c templates = ofTemplates c' templates := by
  apply List.foldl_ext
  intro r template htemplate
  rw [h template htemplate]

namespace Descriptor

open Template

/-- Two contexts with the same workspace expand a descriptor alike, the report or the error included,
when their hosts have the same values for the names that its templates mention. -/
theorem expand_eq_of_asks {c c' : Context} (hworkspace : c.wellKnown = c'.wellKnown) {d : Descriptor}
    (henv : ∀ template ∈ d.templates, ∀ name, Asks c template name → c.env name = c'.env name) :
    d.expand c = d.expand c' := by
  have hexpand : ∀ template ∈ d.templates, Template.expand c template = Template.expand c' template :=
    fun template htemplate => expand_congr hworkspace (henv template htemplate)
  have hreport : Report.ofTemplates c d.templates = Report.ofTemplates c' d.templates :=
    Report.ofTemplates_congr hexpand
  have hmap : (d.mapTemplates fun template => (Template.expand c template).text) =
      d.mapTemplates fun template => (Template.expand c' template).text :=
    d.mapTemplates_congr fun template htemplate =>
      congrArg Expansion.text (hexpand template htemplate)
  rw [expand_eq, expand_eq, hreport, hmap]

def homeHost : Context :=
  Context.ofRoot "/home/u/app" fun name => if name = "HOME" then some "/home/u" else none

def secretHost : Context :=
  { homeHost with env := fun name => if name = "SECRET" then some "hunter2" else homeHost.env name }

def secretText : Descriptor :=
  { empty with
    selector := some (.image "alpine")
    containerEnv := .ofList [
      ("X", "$localWorkspaceFolder:$\x7blocalEnv:HOME:SECRET\x7d$\x7blocalEnv:SECRET")] }

theorem expand_eq_of_asks_secret :
    homeHost.wellKnown = secretHost.wellKnown ∧
    (∀ template ∈ secretText.templates, ∀ name, Asks homeHost template name →
      homeHost.env name = secretHost.env name) ∧
    homeHost.env "SECRET" ≠ secretHost.env "SECRET" ∧
    secretText.expand homeHost = secretText.expand secretHost := by
  have hworkspace : homeHost.wellKnown = secretHost.wellKnown := rfl
  have hbrace : ∀ template ∈ secretText.templates,
      Text.occurs (opening ++ "SECRET".toList ++ ['\x7d'])
        (replaceTokens (tokens homeHost) template.toList) = false := by
    decide +kernel
  have hcolon : ∀ template ∈ secretText.templates,
      Text.occurs (opening ++ "SECRET".toList ++ [':'])
        (replaceTokens (tokens homeHost) template.toList) = false := by
    decide +kernel
  have henv : ∀ template ∈ secretText.templates, ∀ name, Asks homeHost template name →
      homeHost.env name = secretHost.env name := by
    rintro template htemplate name ⟨-, -, before, stop, after, htext, hstop⟩
    have hname : name ≠ "SECRET" := by
      rintro rfl
      have hoccurs : Text.occurs (opening ++ "SECRET".toList ++ [stop])
          (replaceTokens (tokens homeHost) template.toList) = true :=
        Text.occurs_iff.2 ⟨before, after, by simp [htext]⟩
      rcases hstop with rfl | rfl
      · rw [hbrace template htemplate] at hoccurs
        cases hoccurs
      · rw [hcolon template htemplate] at hoccurs
        cases hoccurs
    exact (if_neg hname).symm
  exact ⟨hworkspace, henv, by decide, expand_eq_of_asks hworkspace henv⟩

end Descriptor

end Devcontainer
