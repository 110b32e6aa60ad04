import Devcontainer.Proofs.Template.Expand
import Devcontainer.Proofs.Template.Report

/-!
# What an expansion puts in

Every value that is put in for a name of the workspace is the value of that name, and a name with
braces is found wherever it stands in a template: the replacements that come before its own neither
begin nor end inside of it.
-/

namespace Devcontainer.Template

open Text

def WellKnown.text (c : Context) (w : WellKnown) : String :=
  String.ofList (w.value c)

/-- The expansion of the template puts in the value of the name. -/
def PutsIn (c : Context) (template : String) (w : WellKnown) : Prop :=
  w.name ∈ (expand c template).replacements.map Prod.fst

instance (c : Context) (template : String) (w : WellKnown) : Decidable (PutsIn c template w) :=
  inferInstanceAs (Decidable (_ ∈ _))

theorem replacements_expand (c : Context) (template : String) :
    (expand c template).replacements =
      (foundTokens (tokens c) template.toList).map (fun t => (t.name, t.value))
        ++ (piecesOf c template).filterMap (·.replacement? c.env) := by
  simp only [expand, piecesOf]

theorem WellKnown.name_injective {w w' : WellKnown} (h : w.name = w'.name) : w = w' := by
  cases w <;> cases w' <;> first | rfl | exact absurd h (by decide)

/-! ## Tokens that are found -/

theorem mem_of_mem_foundTokens {ts : List Token} {text : List Char} {t : Token}
    (h : t ∈ foundTokens ts text) : t ∈ ts := by
  induction ts generalizing text with
  | nil => exact h
  | cons u ts ih =>
      rw [foundTokens] at h
      split at h
      next =>
        rcases List.mem_cons.1 h with rfl | h
        · exact List.mem_cons_self ..
        · exact List.mem_cons_of_mem _ (ih h)
      next => exact List.mem_cons_of_mem _ (ih h)

theorem foundTokens_cons (c : Context) (f : Form) (fs : List Form) (text : List Char) :
    foundTokens ((f :: fs).map (Form.token c)) text =
      (if occurs f.written text then [f.token c] else []) ++
        foundTokens (fs.map (Form.token c)) (replaceAll f.written (f.name.value c) text) := by
  rw [List.map_cons, foundTokens, Form.token, String.toList_ofList]
  split <;> rfl

/-- A name with braces is not touched when a form that spares it is replaced. -/
theorem infix_replaceAll {f g : Form} (h : f.Spares g) (hbraces : g.braces = true)
    {text : List Char} (hin : g.written <:+: text) (value : List Char) :
    g.written <:+: replaceAll f.written value text := by
  obtain ⟨before, after, rfl⟩ := hin
  have hhead : ¬ f.written <+: g.written ++ after := by
    refine not_prefix_append after h.1 fun hprefix => ?_
    rw [(h.2 hprefix).1] at hbraces
    cases hbraces
  obtain ⟨body, hf, hbody⟩ := f.written_eq_cons
  obtain ⟨gbody, hg, hgbody⟩ := g.written_eq_cons
  have hapart := replaceAll_append_first hbody value before (gbody ++ after)
  rw [← List.cons_append, ← hf, ← hg] at hapart
  rw [List.append_assoc, hapart,
    replaceAll_append_of_not_head value ⟨gbody, hg, hgbody⟩ hhead, ← List.append_assoc]
  exact ⟨_, _, rfl⟩

theorem token_mem_foundTokens {c : Context} {before after : List Form} {g : Form}
    (hspares : ∀ f ∈ before, f.Spares g) (hbraces : g.braces = true) {text : List Char}
    (hin : g.written <:+: text) :
    g.token c ∈ foundTokens ((before ++ g :: after).map (Form.token c)) text := by
  induction before generalizing text with
  | nil =>
      rw [List.nil_append, foundTokens_cons, if_pos (occurs_iff.2 hin)]
      exact List.mem_append_left _ (List.mem_singleton_self _)
  | cons f before ih =>
      -- whether or not `f` is found, the name is still there when its own turn comes
      have hkept := infix_replaceAll (hspares f (List.mem_cons_self ..)) hbraces hin
        (f.name.value c)
      rw [List.cons_append, foundTokens_cons]
      exact List.mem_append_right _
        (ih (fun f' hf' => hspares f' (List.mem_cons_of_mem _ hf')) hkept)

theorem foundTokens_of_not_mem {c : Context} (fs : List Form) {text : List Char}
    (h : '$' ∉ text) : foundTokens (fs.map (Form.token c)) text = [] := by
  induction fs with
  | nil => rfl
  | cons f fs ih =>
      have hnot : ¬ f.written <:+: text := by
        obtain ⟨body, hf, -⟩ := f.written_eq_cons
        intro hin
        exact h (hin.subset (hf ▸ List.mem_cons_self ..))
      have hkept := replaceAll_form_append_of_not_mem f (f.name.value c) [] h
      rw [List.append_nil, replaceAll_nil _ f.written_ne_nil, List.append_nil] at hkept
      rw [foundTokens_cons, if_neg (mt occurs_iff.1 hnot), hkept, List.nil_append, ih]

/-! ## Names with their values -/

/-- A reference to the host is reported under a name with a colon, which no name of the workspace
has. -/
theorem ne_name_of_replacement? {env : String → Option String} {p : Piece}
    {entry : String × String} (h : p.replacement? env = some entry) (w : WellKnown) :
    entry.1 ≠ w.name := by
  have hcolon : ':' ∉ w.name.toList := by cases w <;> decide
  cases p with
  | char c => cases h
  | reference r =>
      obtain ⟨value, -, rfl⟩ := Option.map_eq_some_iff.1 h
      intro hname
      apply hcolon
      rw [← hname, String.toList_append]
      exact List.mem_append_left _ (by decide)

theorem eq_text_of_mem_replacements {c : Context} {template : String} {w : WellKnown}
    {value : String} (h : (w.name, value) ∈ (expand c template).replacements) :
    value = w.text c := by
  rw [replacements_expand, List.mem_append] at h
  rcases h with h | h
  · obtain ⟨t, ht, hentry⟩ := List.mem_map.1 h
    have hmem := mem_of_mem_foundTokens ht
    rw [tokens_eq] at hmem
    obtain ⟨f, -, rfl⟩ := List.mem_map.1 hmem
    obtain ⟨hname, rfl⟩ := Prod.mk.inj hentry
    rw [← WellKnown.name_injective hname]
    rfl
  · obtain ⟨p, -, hp⟩ := List.mem_filterMap.1 h
    exact absurd rfl (ne_name_of_replacement? hp w)

theorem putsIn_of_braced {c : Context} {template : String} {w : WellKnown}
    (h : braced w.name <:+: template.toList) : PutsIn c template w := by
  obtain ⟨before, after, hall⟩ := List.append_of_mem (Form.mem_all ⟨w, true⟩)
  have hspares : ∀ f ∈ before, f.Spares ⟨w, true⟩ := by
    have hpairs := Form.pairwise_spares_all
    rw [hall, List.pairwise_append] at hpairs
    exact fun f hf => hpairs.2.2 f hf _ (List.mem_cons_self ..)
  have hfound : Form.token c ⟨w, true⟩ ∈ foundTokens (tokens c) template.toList := by
    rw [tokens_eq, hall]
    exact token_mem_foundTokens hspares rfl h
  refine List.mem_map.2 ⟨(w.name, w.text c), ?_, rfl⟩
  rw [replacements_expand]
  exact List.mem_append_left _ (List.mem_map.2 ⟨_, hfound, rfl⟩)

theorem not_putsIn_of_not_mem {c : Context} {template : String} (h : '$' ∉ template.toList)
    (w : WellKnown) : ¬ PutsIn c template w := by
  intro hput
  obtain ⟨entry, hentry, hname⟩ := List.mem_map.1 hput
  rw [replacements_expand, tokens_eq, foundTokens_of_not_mem Form.all h, List.map_nil,
    List.nil_append] at hentry
  obtain ⟨p, -, hp⟩ := List.mem_filterMap.1 hentry
  exact ne_name_of_replacement? hp w hname

theorem mem_replacements_iff {c : Context} {template : String} {w : WellKnown}
    (h : PutsIn c template w) {value : String} :
    (w.name, value) ∈ (expand c template).replacements ↔ value = w.text c := by
  refine ⟨eq_text_of_mem_replacements, ?_⟩
  rintro rfl
  obtain ⟨⟨name, value⟩, hentry, rfl⟩ := List.mem_map.1 h
  rwa [← eq_text_of_mem_replacements hentry]

theorem get?_replacements_ofTemplates (c : Context) (templates : List String) (w : WellKnown) :
    (Report.ofTemplates c templates).replacements.get? w.name =
      if ∃ template ∈ templates, PutsIn c template w then some (w.text c) else none := by
  have hvalue : ∀ value, (w.name, value) ∈
      (templates.flatMap fun template => (expand c template).replacements) → value = w.text c := by
    intro value hmem
    obtain ⟨template, -, hentry⟩ := List.mem_flatMap.1 hmem
    exact eq_text_of_mem_replacements hentry
  have hmem : w.name ∈ (templates.flatMap fun template =>
      (expand c template).replacements).map Prod.fst ↔ ∃ template ∈ templates, PutsIn c template w := by
    rw [List.map_flatMap, List.mem_flatMap]
    rfl
  rw [Report.replacements_ofTemplates, SortedMap.get?_insertAll_of_forall hvalue]
  simp only [hmem]
  rfl

end Devcontainer.Template
