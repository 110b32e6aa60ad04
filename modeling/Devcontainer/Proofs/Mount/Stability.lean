import Devcontainer.Proofs.Mount.Reading

/-!
# The text of a mount that has been read

A mount that has been read from a text prints one option for each class that is set and then, as they
stand, the tokens without a meaning. Those are read back as tokens without a meaning, so the printed
text means the mount again, and printing it once more changes nothing.
-/

namespace Devcontainer.Mount

open Text

/-! ## Tokens without a meaning -/

def assignedKeys : List String :=
  ["type", "source", "src", "target", "dst", "destination", "readonly", "ro"]

def bareKeys : List String :=
  ["readonly", "ro"]

/-- The token sets nothing: its key is not known, or not known without a value. -/
def isUnmodelled (token : List Char) : Bool :=
  match cut '=' token with
  | some (key, _) => !assignedKeys.contains (String.ofList (trim key))
  | none => !bareKeys.contains (String.ofList token)

theorem extra?_ofToken (token : List Char) : (Setting.ofToken token).extra? =
    if isUnmodelled token then some (String.ofList token) else none := by
  unfold Setting.ofToken isUnmodelled
  cases cut '=' token with
  | none =>
      simp only [bareKeys, List.contains_cons, List.contains_nil]
      split_ifs <;> simp_all [Setting.extra?]
  | some parts =>
      simp only [assignedKeys, List.contains_cons, List.contains_nil]
      split_ifs <;> simp_all [Setting.extra?]

theorem extra?_settings (text : String) : (settings text).filterMap Setting.extra? =
    ((tokens text.toList).filter isUnmodelled).map String.ofList := by
  rw [settings, List.filterMap_map, ← List.filterMap_eq_filter, List.map_filterMap]
  refine List.filterMap_congr fun token _ => ?_
  rw [Function.comp_apply, extra?_ofToken]
  cases h : isUnmodelled token <;> simp [Option.guard, h]

theorem tokens_of_mem_tokens {text token : List Char} (h : token ∈ tokens text) :
    tokens token = [token] := by
  obtain ⟨hmem, hne⟩ := List.mem_filter.1 h
  obtain ⟨part, -, rfl⟩ := List.mem_map.1 hmem
  exact tokens_of_trimmed (by simpa using hne) (not_mem_of_mem_tokens h) (trim_trim part)

theorem eq_extra_of_extra? {s : Setting} {text : String} (h : s.extra? = some text) :
    s = .extra text := by
  cases s <;> cases h
  rfl

theorem settings_of_mem_extra {text e : String} (h : e ∈ (settings text).filterMap Setting.extra?) :
    settings e = [.extra e] := by
  rw [extra?_settings] at h
  obtain ⟨token, htoken, rfl⟩ := List.mem_map.1 h
  obtain ⟨hmem, hextra⟩ := List.mem_filter.1 htoken
  rw [settings, String.toList_ofList, tokens_of_mem_tokens hmem, List.map_singleton]
  have hread := extra?_ofToken token
  rw [if_pos hextra] at hread
  rw [eq_extra_of_extra? hread]

/-! ## Texts with extra options -/

theorem settings_canonical {m : Mount} (hextra : ∀ e ∈ m.extra, settings e = [.extra e]) :
    settings m.canonical =
      settings (declaration m.kind (m.source.filter (!·.isEmpty)) m.target m.readOnly) ++
        m.extra.map .extra := by
  have htexts : m.extra.flatMap settings = m.extra.map .extra := by
    rw [List.flatMap_congr hextra]
    exact List.flatMap_pure_eq_map ..
  rw [canonical, settings_intercalate m.options_ne_nil, options_eq, List.flatMap_append, htexts,
    declaration, settings_intercalate (declaredOptions_ne_nil _ _ _ _)]

theorem Describes.append_extra {settings : List Setting} {m : Mount} (h : Describes settings m)
    (texts : List String) :
    Describes (settings ++ texts.map .extra) { m with extra := m.extra ++ texts } := by
  have hother : ∀ {α : Type} (class? : Setting → Option α), (∀ text, class? (.extra text) = none) →
      (settings ++ texts.map Setting.extra).filterMap class? = settings.filterMap class? := by
    intro α class? hnone
    have hnil : texts.filterMap (class? ∘ Setting.extra) = [] :=
      List.filterMap_eq_nil_iff.2 fun text _ => hnone text
    rw [List.filterMap_append, List.filterMap_map, hnil, List.append_nil]
  have hextra : (texts.map Setting.extra).filterMap Setting.extra? = texts := by
    rw [List.filterMap_map]
    exact List.filterMap_some
  refine ⟨?_, ?_, ?_, h.target_ne, ?_, ?_, ?_⟩
  · rw [hother Setting.kind? fun _ => rfl]
    exact h.kinds
  · rw [hother Setting.kind? fun _ => rfl]
    exact h.kind
  · rw [hother Setting.target? fun _ => rfl]
    exact h.target
  · rw [hother Setting.source? fun _ => rfl]
    exact h.source
  · rw [hother Setting.readOnly? fun _ => rfl]
    exact h.readOnly
  · rw [List.filterMap_append, h.extra, hextra]

theorem parse_canonical_of_plain {m : Mount} (hsource : ∀ s ∈ m.source, Plain s)
    (htarget : Plain m.target) (hne : m.target ≠ "")
    (hextra : ∀ e ∈ m.extra, settings e = [.extra e]) :
    parse m.canonical = .ok { m with source := m.source.filter (!·.isEmpty) } := by
  have hdeclared : Describes
      (settings (declaration m.kind (m.source.filter (!·.isEmpty)) m.target m.readOnly))
      ⟨m.kind, m.source.filter (!·.isEmpty), m.target, m.readOnly, []⟩ :=
    ofSettings_eq_ok_iff.1
      (parse_declaration_iff.2 ⟨plain_filter_iff.2 hsource, htarget, hne⟩)
  -- the options before the extra ones are those of a mount without any, which is known to be read back
  rw [parse, settings_canonical hextra, ofSettings_eq_ok_iff]
  exact hdeclared.append_extra m.extra

/-- A text that is read as a mount has a printed form that is read as this mount again, an empty
source apart, and is its own printed form. The tokens without a meaning stand in it as they were
written and in their order. -/
theorem parse_canonical {text : String} {m : Mount} (h : parse text = .ok m) :
    parse m.canonical = .ok { m with source := m.source.filter (!·.isEmpty) } ∧
      ({ m with source := m.source.filter (!·.isEmpty) } : Mount).canonical = m.canonical ∧
      m.options = declaredOptions m.kind (m.source.filter (!·.isEmpty)) m.target m.readOnly ++
        ((tokens text.toList).filter isUnmodelled).map String.ofList := by
  have hdescribes : Describes (settings text) m := ofSettings_eq_ok_iff.1 h
  obtain ⟨hsource, htarget, hne⟩ := plain_of_parse h
  have hextra : ∀ e ∈ m.extra, settings e = [.extra e] := fun e he =>
    settings_of_mem_extra (hdescribes.extra ▸ he)
  refine ⟨parse_canonical_of_plain hsource htarget hne hextra, ?_, ?_⟩
  · rw [canonical, canonical, options_eq, options_eq]
    cases m.source with
    | none => rfl
    | some s => cases hs : s.isEmpty <;> simp [Option.filter, hs]
  · rw [options_eq, ← extra?_settings, hdescribes.extra]

theorem parse_canonical_looseText :
    parse "ro, target , size = 1=2,src=/a,type = bind ,dst=/x,, source = ,destination=/y=z" =
        .ok ⟨.bind, some "", "/y=z", true, ["target", "size = 1=2"]⟩ ∧
      parse "type=bind,target=/y=z,readonly,target,size = 1=2" =
        .ok ⟨.bind, none, "/y=z", true, ["target", "size = 1=2"]⟩ := by
  have hread : parse
      "ro, target , size = 1=2,src=/a,type = bind ,dst=/x,, source = ,destination=/y=z" =
        .ok ⟨.bind, some "", "/y=z", true, ["target", "size = 1=2"]⟩ := by
    decide
  have hcanonical : (⟨.bind, some "", "/y=z", true, ["target", "size = 1=2"]⟩ : Mount).canonical =
      "type=bind,target=/y=z,readonly,target,size = 1=2" := by
    decide
  obtain ⟨hagain, -, -⟩ := parse_canonical hread
  rw [hcanonical] at hagain
  exact ⟨hread, hagain⟩

end Devcontainer.Mount
