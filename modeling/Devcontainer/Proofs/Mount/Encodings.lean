import Devcontainer.Proofs.Mount.Reading
import Devcontainer.Proofs.Template.Cut

/-!
# Two ways to declare a mount

A mount may be declared by a text or by fields. The text is expanded as a whole and cut at its commas
afterwards, the fields are expanded each for itself and never cut. So the two declarations of one
mount agree for as long as what is put in is plain.
-/

namespace Devcontainer.Mount

open Text Template

namespace Spec

def byText (kind : Kind) (source target : String) (readOnly : Bool) : Spec :=
  .text (declaration kind (some source) target readOnly)

def byFields (kind : Kind) (source target : String) (readOnly : Bool) : Spec :=
  .fields ⟨some kind.name, some source, some target, some readOnly⟩

/-- The mount that a declaration means once its templates have been expanded, if it means one. -/
def expanded? (c : Context) (spec : Spec) : Option Mount :=
  (spec.map fun template => (expand c template).text).toMount.toOption

end Spec

def Agree (c : Context) (kind : Kind) (source target : String) (readOnly : Bool) : Prop :=
  (Spec.byText kind source target readOnly).expanded? c =
    (Spec.byFields kind source target readOnly).expanded? c

instance (c : Context) (kind : Kind) (source target : String) (readOnly : Bool) :
    Decidable (Agree c kind source target readOnly) :=
  inferInstanceAs (Decidable (_ = _))

/-! ## Expansions -/

theorem dollar_not_mem_kind (kind : Kind) : '$' ∉ ("type=" ++ kind.name).toList := by
  cases kind <;> decide

theorem pairwise_declaredOptions {c : Context} {kind : Kind} {source target : String}
    {readOnly : Bool} (h : ¬ Entangled c source target) :
    (declaredOptions kind (some source) target readOnly).Pairwise
      fun first second => ¬ Entangled c first second := by
  have hkind : ∀ second, ¬ Entangled c ("type=" ++ kind.name) second := fun _ =>
    not_entangled_of_not_mem (dollar_not_mem_kind kind)
  have hflag : ∀ first, ¬ Entangled c first "readonly" := by
    rintro first ⟨-, hbrace⟩
    rw [replaceTokens_of_not_mem (by decide)] at hbrace
    exact absurd hbrace (by decide)
  have htarget : ¬ Entangled c ("source=" ++ source) ("target=" ++ target) :=
    mt (Entangled.of_append (by decide) (by decide) (by decide)) h
  cases readOnly <;> simp [declaredOptions, hkind, hflag, htarget]

theorem expand_declaration {c : Context} {kind : Kind} {source target : String} {readOnly : Bool}
    (h : ¬ Entangled c source target) :
    (expand c (declaration kind (some source) target readOnly)).text =
      declaration kind (some (expand c source).text) (expand c target).text readOnly := by
  have hkind := expand_of_not_mem (c := c) (dollar_not_mem_kind kind)
  have hsource : (expand c ("source=" ++ source)).text = "source=" ++ (expand c source).text :=
    expand_plain_append (by decide) source
  have htarget : (expand c ("target=" ++ target)).text = "target=" ++ (expand c target).text :=
    expand_plain_append (by decide) target
  have hflag : (expand c "readonly").text = "readonly" := expand_of_not_mem (by decide)
  rw [declaration, expand_intercalate (pairwise_declaredOptions h), declaration]
  cases readOnly <;> simp [declaredOptions, hkind, hsource, htarget, hflag]

/-! ## Declarations without templates -/

theorem kind?_name (kind : Kind) (source target : Option String) (readOnly : Option Bool) :
    Fields.kind? ⟨some kind.name, source, target, readOnly⟩ = .ok kind := by
  cases kind <;> rfl

theorem toMount_byFields {kind : Kind} {source target : String} {readOnly : Bool}
    (h : target ≠ "") : (Spec.byFields kind source target readOnly).toMount =
      .ok ⟨kind, some source, target, readOnly, []⟩ := by
  rw [Spec.byFields, Spec.toMount, Fields.toMount, kind?_name]
  simp

theorem toMount_byFields_empty (kind : Kind) (source : String) (readOnly : Bool) :
    (Spec.byFields kind source "" readOnly).toMount = .error .missingTarget := by
  rw [Spec.byFields, Spec.toMount, Fields.toMount, kind?_name]
  rfl

theorem toOption_byText_iff {kind : Kind} {source target : String} {readOnly : Bool} :
    (Spec.byText kind source target readOnly).toMount.toOption =
        (Spec.byFields kind source target readOnly).toMount.toOption ↔
      target = "" ∨ Plain source ∧ Plain target := by
  have htext : (Spec.byText kind source target readOnly).toMount =
      parse (declaration kind (some source) target readOnly) := rfl
  rw [htext]
  by_cases hempty : target = ""
  · subst hempty
    rw [toMount_byFields_empty]
    cases hparse : parse (declaration kind (some source) "" readOnly) with
    | ok m => exact absurd hparse parse_declaration_ne_ok
    | error fault => exact iff_of_true rfl (Or.inl rfl)
  · have hsome : ∀ (m : Mount) (r : Except Fault Mount), r.toOption = some m ↔ r = .ok m := by
      rintro m (fault | m') <;> simp [Except.toOption]
    rw [toMount_byFields hempty]
    refine (hsome _ _).trans (parse_declaration_iff.trans ?_)
    simp [hempty]

/-! ## Declarations with templates -/

theorem plain_expand {c : Context} {template : String}
    (h : ∀ x : Char, x = ',' ∨ isBlank x = true → x ∉ template.toList ∧ Lacks c x ∧
      ∀ name value, c.env name = some value → x ∉ value.toList) :
    Plain (expand c template).text := by
  have hlacks : ∀ x : Char, x = ',' ∨ isBlank x = true → x ∉ (expand c template).text.toList := by
    intro x hx
    obtain ⟨htemplate, hc, henv⟩ := h x hx
    exact not_mem_expand hc henv htemplate
  refine ⟨hlacks ',' (Or.inl rfl), trim_of_any_eq_false (List.any_eq_false.2 fun x hx => ?_)⟩
  exact fun hblank => hlacks x (Or.inr hblank) hx

/-- The two declarations of a mount agree exactly when source and target come to plain values, or
the target to nothing, unless a reference reads from the source into the target. Commas and blanks
can only come from the templates, the workspace and the host. -/
theorem agree_iff {c : Context} {kind : Kind} {source target : String} {readOnly : Bool}
    (h : ¬ Entangled c source target) :
    (Agree c kind source target readOnly ↔
      (expand c target).text = "" ∨ Plain (expand c source).text ∧ Plain (expand c target).text) ∧
    ((∀ x : Char, x = ',' ∨ isBlank x = true → x ∉ source.toList ∧ x ∉ target.toList ∧ Lacks c x ∧
        ∀ name value, c.env name = some value → x ∉ value.toList) →
      Agree c kind source target readOnly) := by
  have hiff : Agree c kind source target readOnly ↔
      (expand c target).text = "" ∨
        Plain (expand c source).text ∧ Plain (expand c target).text := by
    have htext : (Spec.byText kind source target readOnly).expanded? c =
        (Spec.byText kind (expand c source).text (expand c target).text
          readOnly).toMount.toOption := by
      unfold Spec.byText
      rw [← expand_declaration h]
      rfl
    rw [Agree, htext]
    exact toOption_byText_iff
  refine ⟨hiff, fun hlacks => hiff.2 (Or.inr ⟨?_, ?_⟩)⟩ <;> refine plain_expand fun x hx => ?_
  · obtain ⟨hsource, -, hrest⟩ := hlacks x hx
    exact ⟨hsource, hrest⟩
  · exact (hlacks x hx).2

def dataHost (data : String) : Context :=
  Context.ofRoot "/w" fun name => if name = "DATA" then some data else none

theorem agree_iff_data :
    ¬ Entangled (dataHost "/srv/data") "$\x7blocalEnv:DATA\x7d" "/data" ∧
      (∀ x : Char, x = ',' ∨ isBlank x = true →
        x ∉ "$\x7blocalEnv:DATA\x7d".toList ∧ x ∉ "/data".toList ∧
          Lacks (dataHost "/srv/data") x ∧
          ∀ name value, (dataHost "/srv/data").env name = some value → x ∉ value.toList) ∧
      Agree (dataHost "/srv/data") .bind "$\x7blocalEnv:DATA\x7d" "/data" true := by
  have hentangled : ¬ Entangled (dataHost "/srv/data") "$\x7blocalEnv:DATA\x7d" "/data" := by
    rintro ⟨-, hbrace⟩
    rw [replaceTokens_of_not_mem (by decide)] at hbrace
    exact absurd hbrace (by decide)
  have htexts : ∀ text ∈ ["$\x7blocalEnv:DATA\x7d".toList, "/data".toList, "/srv/data".toList] ++
      [WellKnown.containerBasename, .localBasename, .containerFolder, .localFolder].map
        (WellKnown.value (dataHost "/srv/data")),
      text.any (fun x => x == ',' || isBlank x) = false := by
    decide +kernel
  have hlacks : ∀ x : Char, x = ',' ∨ isBlank x = true →
      x ∉ "$\x7blocalEnv:DATA\x7d".toList ∧ x ∉ "/data".toList ∧ Lacks (dataHost "/srv/data") x ∧
        ∀ name value, (dataHost "/srv/data").env name = some value → x ∉ value.toList := by
    intro x hx
    have hnot : ∀ text : List Char, text.any (fun x => x == ',' || isBlank x) = false →
        x ∉ text := by
      intro text htext hmem
      exact List.any_eq_false.1 htext x hmem (by simpa using hx)
    refine ⟨hnot _ (htexts _ (by simp)), hnot _ (htexts _ (by simp)), fun w => hnot _ (htexts _ ?_),
      fun name value hvalue => ?_⟩
    · cases w <;> simp
    · obtain ⟨-, hvalue⟩ := Option.ite_none_right_eq_some.1 hvalue
      obtain rfl := Option.some.inj hvalue
      exact hnot _ (htexts _ (by simp))
  exact ⟨hentangled, hlacks, (agree_iff hentangled).2 hlacks⟩

/-- A comma that the host puts in separates options of the text: the mount that is declared by it is
read-only, the other one is not. -/
theorem not_agree_comma :
    ¬ ∀ (c : Context) (kind : Kind) (source target : String) (readOnly : Bool), source ≠ "" →
      target ≠ "" → Plain source → Plain target → Agree c kind source target readOnly := by
  intro h
  have hagree := h (dataHost "/srv,readonly") .bind "$\x7blocalEnv:DATA\x7d" "/data" false
    (by decide) (by decide) (by decide) (by decide)
  exact absurd hagree (by decide +kernel)

end Devcontainer.Mount
