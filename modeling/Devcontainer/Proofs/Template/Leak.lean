import Devcontainer.Proofs.Descriptor.Expand
import Devcontainer.Proofs.Template.Expand

/-!
# References that an expansion leaves behind

A scan reads each piece of a template once, so what it puts in can make references that it does not
read: the default of a reference may hold a `$`, and a value may complete the opening of a reference
that broke off before it. If no value of the host holds a `$`, this is the only way.
-/

namespace Devcontainer.Template

def StartsReference (text : List Char) : Prop :=
  ∃ r : Reference, r.WellFormed ∧ r.written <+: text

def HasReference (text : List Char) : Prop :=
  ∃ r : Reference, r.WellFormed ∧ r.written <:+: text

/-- The expansion of the pieces has a reference that is none of them: it begins in the default of
the first piece, or at a first `$` whose opening breaks off before a piece that completes it. -/
inductive LeaksAt (env : String → Option String) : List Piece → Prop
  | default {r : Reference} {before behind : List Char} {after : List Piece} :
    host? env r.name = none → r.default? = some (before ++ '$' :: behind) →
    StartsReference ('$' :: behind ++ textOf env after) → LeaksAt env (.reference r :: after)
  | opening {broken : List Char} {r : Reference} {after : List Piece} :
    '$' :: broken <+: opening → '$' :: broken ≠ opening →
    StartsReference ('$' :: broken ++ textOf env (.reference r :: after)) →
    LeaksAt env (.char '$' :: broken.map .char ++ .reference r :: after)

def Leaks (c : Context) (template : String) : Prop :=
  ∃ before after, piecesOf c template = before ++ after ∧ LeaksAt c.env after

/-! ## References in a text -/

theorem startsReference_iff {text : List Char} :
    StartsReference text ↔ (referenceAt text).isSome := by
  constructor
  · rintro ⟨r, hr, rest, rfl⟩
    rw [referenceAt_written_append hr]
    rfl
  · intro h
    obtain ⟨⟨r, width⟩, hr⟩ := Option.isSome_iff_exists.1 h
    obtain ⟨hwell, -, hpre⟩ := wellFormed_of_referenceAt hr
    exact ⟨r, hwell, hpre⟩

theorem StartsReference.startsWith_opening {text : List Char} (h : StartsReference text) :
    opening <+: text := by
  obtain ⟨r, -, hpre⟩ := h
  rw [r.written_eq] at hpre
  exact (List.prefix_append _ _).trans hpre

theorem StartsReference.hasReference {text : List Char} (h : StartsReference text) :
    HasReference text := by
  obtain ⟨r, hr, hpre⟩ := h
  exact ⟨r, hr, hpre.isInfix⟩

theorem HasReference.append_left {text : List Char} (h : HasReference text) (before : List Char) :
    HasReference (before ++ text) := by
  obtain ⟨r, hr, hinfix⟩ := h
  exact ⟨r, hr, hinfix.trans (List.suffix_append _ _).isInfix⟩

theorem HasReference.of_append {head rest : List Char} (h : HasReference (head ++ rest)) :
    (∃ before behind, head = before ++ '$' :: behind ∧ StartsReference ('$' :: behind ++ rest)) ∨
      HasReference rest := by
  obtain ⟨r, hr, before, behind, htext⟩ := h
  rw [List.append_assoc] at htext
  rcases List.append_eq_append_iff.1 htext with ⟨more, rfl, hmore⟩ | ⟨more, -, hrest⟩
  · cases more with
    | nil =>
        rw [List.nil_append] at hmore
        exact Or.inr ⟨r, hr, ⟨[], behind, hmore⟩⟩
    | cons a more =>
        obtain ⟨body, hbody, -⟩ := opening_eq_cons
        have ha : a = '$' := by
          rw [r.written_eq, hbody] at hmore
          exact (List.cons.inj hmore).1.symm
        subst ha
        exact Or.inl ⟨before, more, rfl, r, hr, ⟨behind, hmore⟩⟩
  · exact Or.inr ⟨r, hr, ⟨more, behind, by rw [hrest, List.append_assoc]⟩⟩

theorem brace_mem_written (r : Reference) : '\x7d' ∈ r.written := by
  rw [r.written_eq]
  simp

/-! ## References in the text of pieces -/

theorem exists_map_char_append (ps : List Piece) :
    ∃ (head : List Char) (tail : List Piece), ps = head.map .char ++ tail ∧
      (tail = [] ∨ ∃ r rest, tail = .reference r :: rest) := by
  induction ps with
  | nil => exact ⟨[], [], rfl, Or.inl rfl⟩
  | cons p ps ih =>
      cases p with
      | reference r => exact ⟨[], _, rfl, Or.inr ⟨r, ps, rfl⟩⟩
      | char c =>
          obtain ⟨head, tail, rfl, htail⟩ := ih
          exact ⟨c :: head, tail, rfl, htail⟩

/-- What stands behind a full opening is a reference before the expansion if it is one after it: the
first reference behind the opening ends with a brace, and characters stay as they are. -/
theorem isSome_referenceAt_of_expanded {env : String → Option String} {head : List Char}
    {tail : List Piece} (htail : tail = [] ∨ ∃ r rest, tail = .reference r :: rest)
    (h : (referenceAt (opening ++ (head ++ textOf env tail))).isSome) :
    (referenceAt (opening ++ (head ++ tail.flatMap Piece.written))).isSome := by
  rw [isSome_referenceAt_opening_append] at h ⊢
  obtain ⟨c, rest, htext, hbrace, hcolon, hend⟩ := h
  rcases htail with rfl | ⟨r, after, rfl⟩
  · exact ⟨c, rest, htext, hbrace, hcolon, hend⟩
  · have hwritten : '\x7d' ∈ (Piece.reference r :: after).flatMap Piece.written :=
      List.mem_append_left _ (brace_mem_written r)
    cases head with
    | nil =>
        obtain ⟨body, hbody, -⟩ := opening_eq_cons
        have hcons : r.written = '$' :: (body ++ (r.body ++ ['\x7d'])) := by
          rw [r.written_eq, hbody, List.cons_append]
        refine ⟨'$', body ++ (r.body ++ ['\x7d']) ++ after.flatMap Piece.written, ?_,
          by decide, by decide, by simp⟩
        rw [List.nil_append, List.flatMap_cons, Piece.written, hcons, List.cons_append]
    | cons a head =>
        obtain rfl : a = c := (List.cons.inj htext).1
        exact ⟨a, _, rfl, hbrace, hcolon, List.mem_append_right _ hwritten⟩

theorem leaksAt_of_char {env : String → Option String} {rest : List Piece}
    (hnone : referenceAt ('$' :: rest.flatMap Piece.written) = none)
    (h : StartsReference ('$' :: textOf env rest)) : LeaksAt env (.char '$' :: rest) := by
  obtain ⟨head, tail, rfl, htail⟩ := exists_map_char_append rest
  rw [written_map_char_append] at hnone
  have htext : StartsReference ('$' :: head ++ textOf env tail) := by
    rwa [textOf_map_char_append] at h
  by_cases hfull : opening <+: '$' :: head
  · obtain ⟨behind, hbehind⟩ := hfull
    rw [← hbehind, List.append_assoc, startsReference_iff] at htext
    have hsome := isSome_referenceAt_of_expanded htail htext
    rw [← List.append_assoc, hbehind] at hsome
    rw [← List.cons_append] at hnone
    rw [hnone] at hsome
    cases hsome
  · have hbroken : '$' :: head <+: opening := by
      have hor := List.prefix_or_prefix_of_prefix htext.startsWith_opening (List.prefix_append _ _)
      exact hor.resolve_left hfull
    have hne : '$' :: head ≠ opening := fun heq => hfull (heq ▸ List.prefix_rfl)
    rcases htail with rfl | ⟨r, after, rfl⟩
    · exact absurd (by simpa [textOf] using htext.startsWith_opening) hfull
    · exact .opening hbroken hne htext

theorem LeaksAt.hasReference {env : String → Option String} {ps : List Piece} (h : LeaksAt env ps) :
    HasReference (textOf env ps) := by
  cases h with
  | @default r before behind after hhost hdefault hstart =>
      have hvalue : r.value? env = some (before ++ '$' :: behind) := by
        rw [value?_eq, hhost, hdefault]
        simp [Option.filter_some]
      rw [textOf_cons, Piece.text, hvalue, Option.getD_some, List.append_assoc]
      exact hstart.hasReference.append_left before
  | @opening broken r after _ _ hstart =>
      have htext : textOf env (.char '$' :: broken.map .char ++ .reference r :: after) =
          '$' :: broken ++ textOf env (.reference r :: after) := by
        rw [List.cons_append, textOf_cons, textOf_map_char_append]
        rfl
      rw [htext]
      exact hstart.hasReference

theorem hasReference_textOf_iff {env : String → Option String}
    (henv : ∀ name value, env name = some value → '$' ∉ value.toList) {ps : List Piece}
    (hps : pieces (ps.flatMap Piece.written) = ps)
    (hvalue : ∀ r, .reference r ∈ ps → (r.value? env).isSome) :
    HasReference (textOf env ps) ↔ ∃ before after, ps = before ++ after ∧ LeaksAt env after := by
  constructor
  · intro h
    induction ps with
    | nil =>
        obtain ⟨r, -, hinfix⟩ := h
        exact absurd (List.infix_nil.1 hinfix) r.written_ne_nil
    | cons p ps ih =>
        obtain ⟨-, hrest, hnone⟩ := pieces_eq_cons hps
        rw [textOf_cons] at h
        rcases h.of_append with ⟨before, behind, hp, hstart⟩ | h
        · refine ⟨[], p :: ps, rfl, ?_⟩
          cases p with
          | char c =>
              -- the only character is the `$`
              obtain ⟨rfl, rfl, rfl⟩ : before = [] ∧ c = '$' ∧ behind = [] := by
                cases before with
                | nil => exact ⟨rfl, (List.cons.inj hp).1, (List.cons.inj hp).2.symm⟩
                | cons b before => simp [Piece.text] at hp
              exact leaksAt_of_char (hnone '$' rfl) hstart
          | reference r =>
              obtain ⟨value, hr⟩ := Option.isSome_iff_exists.1 (hvalue r (List.mem_cons_self ..))
              rw [Piece.text, hr, Option.getD_some] at hp
              rw [value?_eq] at hr
              cases hhost : host? env r.name with
              | some v =>
                  rw [hhost, Option.some_or] at hr
                  rw [← Option.some.inj hr] at hp
                  exact absurd (by rw [hp]; simp) (not_mem_host? henv hhost)
              | none =>
                  rw [hhost, Option.none_or] at hr
                  have hdefault := (Option.filter_eq_some_iff.1 hr).1
                  exact .default hhost (hp ▸ hdefault) hstart
        · obtain ⟨before, after, rfl, hleaks⟩ := ih hrest
            (fun r hr => hvalue r (List.mem_cons_of_mem _ hr)) h
          exact ⟨p :: before, after, rfl, hleaks⟩
  · rintro ⟨before, after, rfl, hleaks⟩
    rw [textOf_append]
    exact hleaks.hasReference.append_left _

theorem isSome_value?_of_missing_eq_nil {c : Context} {template : String}
    (h : (expand c template).missing = []) {r : Reference}
    (hr : .reference r ∈ piecesOf c template) : (r.value? c.env).isSome := by
  rw [missing_expand, List.filterMap_eq_nil_iff] at h
  have hpiece := h _ hr
  rw [Piece.missing?] at hpiece
  cases hvalue : r.value? c.env with
  | some value => rfl
  | none =>
      rw [hvalue] at hpiece
      cases hpiece

theorem hasReference_expand_iff {c : Context}
    (henv : ∀ name value, c.env name = some value → '$' ∉ value.toList) {template : String}
    (h : (expand c template).missing = []) :
    HasReference (expand c template).text.toList ↔ Leaks c template := by
  have hpieces : pieces ((piecesOf c template).flatMap Piece.written) = piecesOf c template := by
    rw [piecesOf, flatMap_written_pieces]
  rw [toList_text_expand]
  exact hasReference_textOf_iff henv hpieces fun r hr => isSome_value?_of_missing_eq_nil h hr

/-! ## References in an expanded descriptor -/

/-- No default holds a `$`, and no opening breaks off before a reference. -/
def Tame (c : Context) (template : String) : Prop :=
  ∀ before after, piecesOf c template = before ++ after →
    (∀ r d rest, after = .reference r :: rest → r.default? = some d → '$' ∉ d) ∧
    ∀ broken r rest, '$' :: broken <+: opening →
      after ≠ .char '$' :: broken.map .char ++ .reference r :: rest

theorem Tame.not_leaks {c : Context} {template : String} (h : Tame c template) :
    ¬ Leaks c template := by
  rintro ⟨before, after, hpieces, hleaks⟩
  obtain ⟨hdefaults, hopenings⟩ := h before after hpieces
  cases hleaks with
  | default _ hdefault _ => exact hdefaults _ _ _ rfl hdefault (by simp)
  | opening hbroken _ _ => exact hopenings _ _ _ hbroken rfl

end Devcontainer.Template

namespace Devcontainer.Descriptor

open Template

/-- An expansion that succeeds leaves a reference to the host behind exactly when a template leaks,
and never when all of them are tame. -/
theorem leaves_reference_iff {c : Context}
    (henv : ∀ name value, c.env name = some value → '$' ∉ value.toList) {d e : Descriptor}
    {report : Report} (h : d.expand c = .ok (e, report)) :
    ((∃ text ∈ e.templates, HasReference text.toList) ↔
        ∃ template ∈ d.templates, Leaks c template) ∧
      ((∀ template ∈ d.templates, Tame c template) →
        ∀ text ∈ e.templates, ¬ HasReference text.toList) := by
  obtain ⟨rfl, hmissing⟩ := eq_of_expand h
  have hiff :
      (∃ text ∈ (d.mapTemplates fun template => (Template.expand c template).text).templates,
        HasReference text.toList) ↔ ∃ template ∈ d.templates, Leaks c template := by
    rw [templates_mapTemplates]
    constructor
    · rintro ⟨text, htext, href⟩
      obtain ⟨template, htemplate, rfl⟩ := List.mem_map.1 htext
      exact ⟨template, htemplate,
        (hasReference_expand_iff henv (hmissing template htemplate)).1 href⟩
    · rintro ⟨template, htemplate, hleaks⟩
      exact ⟨_, List.mem_map_of_mem htemplate,
        (hasReference_expand_iff henv (hmissing template htemplate)).2 hleaks⟩
  refine ⟨hiff, fun htame text htext href => ?_⟩
  obtain ⟨template, htemplate, hleaks⟩ := hiff.1 ⟨text, htext, href⟩
  exact (htame template htemplate).not_leaks hleaks

def nestedReference : Descriptor :=
  { empty with
    selector := some (.image "alpine")
    containerEnv := .ofList [("X", "$\x7blocalEnv:A:$\x7blocalEnv:B\x7d\x7d")] }

def bareHost : Context := Context.ofRoot "/w" fun _ => none

theorem expand_nestedReference : nestedReference.expand bareHost =
    .ok (nestedReference.mapTemplates fun template => (Template.expand bareHost template).text,
      Report.ofTemplates bareHost nestedReference.templates) := by
  rw [expand_eq]
  exact if_pos (by decide)

theorem leaves_reference_nestedReference :
    (∀ name value, bareHost.env name = some value → '$' ∉ value.toList) ∧
    ∃ e report, nestedReference.expand bareHost = .ok (e, report) ∧
      ((∃ text ∈ e.templates, HasReference text.toList) ↔
        ∃ template ∈ nestedReference.templates, Leaks bareHost template) := by
  have henv : ∀ name value, bareHost.env name = some value → '$' ∉ value.toList :=
    fun _ _ h => nomatch h
  exact ⟨henv, _, _, expand_nestedReference, (leaves_reference_iff henv expand_nestedReference).1⟩

/-- What the brace of the inner reference leaves over is a reference again, and is let through. -/
theorem not_resolved_nestedReference :
    ¬ ∀ (c : Context) (d e : Descriptor) (report : Report), Lacks c '$' →
      (∀ name value, c.env name = some value → '$' ∉ value.toList) →
      d.expand c = .ok (e, report) → ∀ text ∈ e.templates, ¬ HasReference text.toList := by
  intro h
  have hlacks : Lacks bareHost '$' := by
    intro w
    cases w <;> decide
  have htext : "$\x7blocalEnv:B\x7d" ∈ (nestedReference.mapTemplates fun template =>
      (Template.expand bareHost template).text).templates := by decide
  have hreference : HasReference "$\x7blocalEnv:B\x7d".toList := by
    refine ⟨⟨['B'], none⟩, ⟨List.cons_ne_nil _ _, by simp, fun d hd => nomatch hd⟩, ?_⟩
    exact List.infix_rfl
  exact h bareHost nestedReference _ _ hlacks (fun _ _ h => nomatch h) expand_nestedReference _
    htext hreference

end Devcontainer.Descriptor
