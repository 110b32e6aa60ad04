import Devcontainer.Mount.Spec
import Devcontainer.Proofs.Mount.Canonical
import Devcontainer.Proofs.Mount.Settings

/-!
# Reading the text of a mount back

A value that is read from the text of a mount holds no comma and is trimmed, since the text is cut at
its commas and every part is trimmed. So a mount is read back from the text of its options only if
its own values are of this kind, and then it is.
-/

namespace Devcontainer.Mount

open Text

/-- A value that a text of options carries as it stands. -/
def Plain (value : String) : Prop :=
  ',' ∉ value.toList ∧ trim value.toList = value.toList

instance (value : String) : Decidable (Plain value) :=
  inferInstanceAs (Decidable (_ ∧ _))

theorem plain_empty : Plain "" := by decide

/-! ## Values that have been read -/

theorem exists_value_of_ofToken {token : List Char} {value : String}
    (h : (Setting.ofToken token).source? = some value ∨
      (Setting.ofToken token).target? = some value) :
    ∃ before after, token = before ++ '=' :: after ∧ value = String.ofList (trim after) := by
  unfold Setting.ofToken at h
  cases hcut : cut '=' token with
  | none =>
      rw [hcut] at h
      simp only at h
      split_ifs at h <;> simp [Setting.source?, Setting.target?] at h
  | some parts =>
      obtain ⟨before, after⟩ := parts
      refine ⟨before, after, cut_eq_some hcut, ?_⟩
      rw [hcut] at h
      simp only at h
      split_ifs at h
      · simp [Setting.source?, Setting.target?] at h
      · simpa [Setting.source?, Setting.target?, eq_comm] using h
      · simpa [Setting.source?, Setting.target?, eq_comm] using h
      · simp [Setting.source?, Setting.target?] at h
      · simp [Setting.source?, Setting.target?] at h

theorem not_mem_of_mem_tokens {text token : List Char} (h : token ∈ tokens text) : ',' ∉ token := by
  obtain ⟨part, hpart, rfl⟩ := List.mem_map.1 (List.mem_of_mem_filter h)
  exact not_mem_trim (not_mem_of_mem_splitOn hpart)

theorem plain_of_mem_settings {text value : String} {s : Setting} (hs : s ∈ settings text)
    (h : s.source? = some value ∨ s.target? = some value) : Plain value := by
  obtain ⟨token, htoken, rfl⟩ := List.mem_map.1 hs
  obtain ⟨before, after, hsplit, rfl⟩ := exists_value_of_ofToken h
  have hafter : ',' ∉ after := by
    have hcomma := not_mem_of_mem_tokens htoken
    rw [hsplit] at hcomma
    exact fun hmem => hcomma (List.mem_append_right _ (List.mem_cons_of_mem _ hmem))
  rw [Plain, String.toList_ofList]
  exact ⟨not_mem_trim hafter, trim_trim after⟩

theorem plain_of_parse {text : String} {m : Mount} (h : parse text = .ok m) :
    (∀ s ∈ m.source, Plain s) ∧ Plain m.target ∧ m.target ≠ "" := by
  have hdescribes : Describes (settings text) m := ofSettings_eq_ok_iff.1 h
  refine ⟨fun s hs => ?_, ?_, hdescribes.target_ne⟩
  · have hlast := hdescribes.source.trans hs
    obtain ⟨setting, hmem, hsource⟩ := List.mem_filterMap.1 (List.mem_of_getLast? hlast)
    exact plain_of_mem_settings hmem (Or.inl hsource)
  · obtain ⟨setting, hmem, htarget⟩ :=
      List.mem_filterMap.1 (List.mem_of_getLast? hdescribes.target)
    exact plain_of_mem_settings hmem (Or.inr htarget)

/-! ## Options that are read back -/

theorem tokens_intercalate {parts : List (List Char)} (h : parts ≠ []) :
    tokens (List.intercalate [','] parts) = parts.flatMap tokens := by
  unfold tokens
  rw [splitOn_intercalate_eq_flatMap ',' h, List.map_flatMap, List.filter_flatMap]

theorem settings_intercalate {options : List String} (h : options ≠ []) :
    settings (String.intercalate "," options) = options.flatMap settings := by
  have hne : options.map String.toList ≠ [] := mt List.map_eq_nil_iff.1 h
  unfold settings
  rw [String.toList_intercalate, show ",".toList = [','] from rfl, tokens_intercalate hne,
    List.flatMap_map, List.map_flatMap]

theorem tokens_of_trimmed {token : List Char} (hne : token ≠ []) (hcomma : ',' ∉ token)
    (htrim : trim token = token) : tokens token = [token] := by
  unfold tokens
  rw [splitOn_of_not_mem hcomma, List.map_singleton, htrim]
  simpa using hne

theorem settings_assignment {key value : String} (hcomma : ',' ∉ key.toList)
    (hblank : key.toList.any isBlank = false) (hvalue : Plain value) :
    settings (key ++ "=" ++ value) =
      [Setting.ofToken (key.toList ++ '=' :: value.toList)] := by
  have htoken : (key ++ "=" ++ value).toList = key.toList ++ '=' :: value.toList := by
    simp [String.toList_append]
  have hhead : ∀ c ∈ (key.toList ++ '=' :: value.toList).head?, isBlank c = false := by
    intro c hc
    cases hkey : key.toList with
    | nil =>
        rw [hkey] at hc
        obtain rfl : '=' = c := Option.some.inj hc
        decide
    | cons k rest =>
        rw [hkey] at hc
        obtain rfl : k = c := Option.some.inj hc
        exact Bool.eq_false_iff.2
          (List.any_eq_false.1 hblank k (hkey ▸ List.mem_cons_self ..))
  have hlast : ∀ c ∈ (key.toList ++ '=' :: value.toList).getLast?, isBlank c = false := by
    intro c hc
    rw [List.getLast?_append, List.getLast?_cons, Option.some_or] at hc
    cases hend : value.toList.getLast? with
    | none =>
        rw [hend] at hc
        obtain rfl : '=' = c := Option.some.inj hc
        decide
    | some e =>
        rw [hend] at hc
        obtain rfl : e = c := Option.some.inj hc
        exact (trim_eq_self_iff.1 hvalue.2).2 e hend
  have hmem : ',' ∉ key.toList ++ '=' :: value.toList := by
    simp [hcomma, hvalue.1]
  unfold settings
  rw [htoken, tokens_of_trimmed (by simp) hmem (trim_eq_self_iff.2 ⟨hhead, hlast⟩),
    List.map_singleton]

theorem ofToken_assignment {key value : String} (hequals : '=' ∉ key.toList)
    (hblank : key.toList.any isBlank = false) (hvalue : trim value.toList = value.toList) :
    Setting.ofToken (key.toList ++ '=' :: value.toList) =
      if key = "type" then .kind value
      else if key = "source" ∨ key = "src" then .source value
      else if key = "target" ∨ key = "dst" ∨ key = "destination" then .target value
      else if key = "readonly" ∨ key = "ro" then .readOnly (value = "true" ∨ value = "1")
      else .extra (String.ofList (key.toList ++ '=' :: value.toList)) := by
  unfold Setting.ofToken
  rw [cut_append hequals]
  simp only [trim_of_any_eq_false hblank, hvalue, String.ofList_toList]

theorem settings_kind (kind : Kind) : settings ("type=" ++ kind.name) = [.kind kind.name] := by
  cases kind <;> decide

theorem settings_source {value : String} (h : Plain value) :
    settings ("source=" ++ value) = [.source value] := by
  have hassigned : settings ("source" ++ "=" ++ value) = _ :=
    settings_assignment (by decide) (by decide) h
  rw [ofToken_assignment (by decide) (by decide) h.2] at hassigned
  exact hassigned

theorem settings_target {value : String} (h : Plain value) :
    settings ("target=" ++ value) = [.target value] := by
  have hassigned : settings ("target" ++ "=" ++ value) = _ :=
    settings_assignment (by decide) (by decide) h
  rw [ofToken_assignment (by decide) (by decide) h.2] at hassigned
  exact hassigned

theorem settings_readonly : settings "readonly" = [.readOnly true] := by decide

/-! ## Declarations -/

/-- The options that declare a mount; a source that is given is one of them even when it is empty. -/
def declaredOptions (kind : Kind) (source : Option String) (target : String) (readOnly : Bool) :
    List String :=
  ["type=" ++ kind.name] ++ (source.map ("source=" ++ ·)).toList ++ ["target=" ++ target]
    ++ (if readOnly then ["readonly"] else [])

def declaration (kind : Kind) (source : Option String) (target : String) (readOnly : Bool) :
    String :=
  String.intercalate "," (declaredOptions kind source target readOnly)

example : declaration .volume (some "cache") "/c" true =
    "type=volume,source=cache,target=/c,readonly" := by decide

theorem declaredOptions_ne_nil (kind : Kind) (source : Option String) (target : String)
    (readOnly : Bool) : declaredOptions kind source target readOnly ≠ [] := by
  simp [declaredOptions]

theorem ofName?_name (kind : Kind) : Kind.ofName? kind.name = some kind := by
  cases kind <;> decide

theorem settings_readonlyOption (readOnly : Bool) :
    (if readOnly then ["readonly"] else []).flatMap settings =
      if readOnly then [.readOnly true] else [] := by
  cases readOnly with
  | false => rfl
  | true =>
      rw [if_pos rfl, if_pos rfl, List.flatMap_singleton]
      exact settings_readonly

theorem settings_declaration {kind : Kind} {source : Option String} {target : String}
    {readOnly : Bool} (hsource : ∀ s ∈ source, Plain s) (htarget : Plain target) :
    settings (declaration kind source target readOnly) =
      [.kind kind.name] ++ (source.map Setting.source).toList ++ [.target target]
        ++ (if readOnly then [.readOnly true] else []) := by
  have hsettings : ((source.map ("source=" ++ ·)).toList).flatMap settings =
      (source.map Setting.source).toList := by
    cases source with
    | none => rfl
    | some s =>
        rw [Option.map_some, Option.toList_some, List.flatMap_singleton]
        exact settings_source (hsource s rfl)
  rw [declaration, settings_intercalate (declaredOptions_ne_nil _ _ _ _), declaredOptions,
    List.flatMap_append, List.flatMap_append, List.flatMap_append, List.flatMap_singleton,
    List.flatMap_singleton, settings_kind, hsettings, settings_target htarget,
    settings_readonlyOption]

/-- A mount is read back from its declaration exactly when its values are plain. -/
theorem parse_declaration_iff {kind : Kind} {source : Option String} {target : String}
    {readOnly : Bool} :
    parse (declaration kind source target readOnly) = .ok ⟨kind, source, target, readOnly, []⟩ ↔
      (∀ s ∈ source, Plain s) ∧ Plain target ∧ target ≠ "" := by
  constructor
  · exact plain_of_parse
  · rintro ⟨hsource, htarget, hne⟩
    rw [parse, settings_declaration hsource htarget, ofSettings_eq_ok_iff]
    have hkind : Kind.ofName? kind.name = some kind := ofName?_name kind
    have hknown : ∀ name ∈ [kind.name], (Kind.ofName? name).isSome := by simp [hkind]
    -- each class has at most one setting, so its last one is seen once the options are listed
    cases source <;> cases readOnly <;>
      exact ⟨hknown, hkind, rfl, hne, rfl, rfl, rfl⟩

theorem parse_declaration_ne_ok {kind : Kind} {source : Option String} {readOnly : Bool}
    {m : Mount} : parse (declaration kind source "" readOnly) ≠ .ok m := by
  intro h
  have hdescribes : Describes _ m := ofSettings_eq_ok_iff.1 h
  have htarget := hdescribes.target
  -- the empty target is the last one
  have hlast : (settings (declaration kind source "" readOnly)).filterMap Setting.target? =
      ((["type=" ++ kind.name] ++ (source.map ("source=" ++ ·)).toList).flatMap
        settings).filterMap Setting.target? ++ [""] := by
    rw [declaration, settings_intercalate (declaredOptions_ne_nil _ _ _ _), declaredOptions,
      List.flatMap_append, List.flatMap_append, List.flatMap_singleton,
      settings_target plain_empty, settings_readonlyOption, List.filterMap_append,
      List.filterMap_append]
    cases readOnly <;> simp [Setting.target?]
  rw [hlast, List.getLast?_concat] at htarget
  exact hdescribes.target_ne (Option.some.inj htarget).symm

/-! ## The text of a mount -/

theorem options_eq (m : Mount) : m.options =
    declaredOptions m.kind (m.source.filter (!·.isEmpty)) m.target m.readOnly ++ m.extra := by
  obtain ⟨kind, source, target, readOnly, extra⟩ := m
  rw [options, declaredOptions]
  cases source with
  | none => rfl
  | some s => cases hs : s.isEmpty <;> simp [Option.filter, hs]

theorem canonical_eq_declaration {m : Mount} (h : m.extra = []) :
    m.canonical = declaration m.kind (m.source.filter (!·.isEmpty)) m.target m.readOnly := by
  rw [canonical, options_eq, h, List.append_nil, declaration]

theorem extra_of_toMount {f : Fields} {m : Mount} (h : f.toMount = .ok m) :
    m.extra = [] ∧ m.target ≠ "" := by
  unfold Fields.toMount at h
  split at h
  next => cases h
  next =>
    split at h
    next => cases h
    next => cases h
    next target hne _ =>
      cases h
      exact ⟨rfl, hne⟩

theorem plain_filter_iff {source : Option String} :
    (∀ s ∈ source.filter (!·.isEmpty), Plain s) ↔ ∀ s ∈ source, Plain s := by
  cases source with
  | none => simp
  | some s =>
      by_cases hs : s = ""
      · simp [hs, plain_empty]
      · simp [Option.filter, hs]

/-- The text of a mount that is declared by fields means that mount, an empty source apart, exactly
when neither its source nor its target holds a comma or has a blank at an end. -/
theorem toMount_toSpec_iff {f : Fields} {m : Mount} (h : f.toMount = .ok m) :
    m.toSpec.toMount = .ok { m with source := m.source.filter (!·.isEmpty) } ↔
      (∀ s ∈ m.source, Plain s) ∧ Plain m.target := by
  obtain ⟨hextra, hne⟩ := extra_of_toMount h
  have hread : m.toSpec.toMount =
      parse (declaration m.kind (m.source.filter (!·.isEmpty)) m.target m.readOnly) := by
    rw [← canonical_eq_declaration hextra]
    rfl
  have hmount : { m with source := m.source.filter (!·.isEmpty) } =
      (⟨m.kind, m.source.filter (!·.isEmpty), m.target, m.readOnly, []⟩ : Mount) := by
    rw [← hextra]
  rw [hread, hmount, parse_declaration_iff, plain_filter_iff]
  exact ⟨fun ⟨hsource, htarget, _⟩ => ⟨hsource, htarget⟩,
    fun ⟨hsource, htarget⟩ => ⟨hsource, htarget, hne⟩⟩

theorem toMount_toSpec_cache :
    (⟨some "volume", some "", some "/var/cache", some true⟩ : Fields).toMount =
        .ok ⟨.volume, some "", "/var/cache", true, []⟩ ∧
      (⟨.volume, some "", "/var/cache", true, []⟩ : Mount).toSpec.toMount =
        .ok ⟨.volume, none, "/var/cache", true, []⟩ :=
  ⟨by decide, (toMount_toSpec_iff (f := ⟨some "volume", some "", some "/var/cache", some true⟩)
    (by decide)).2 (by decide)⟩

/-- A comma in a source sets an option of its own: this mount becomes read-only. -/
theorem not_toMount_toSpec_comma :
    ¬ ∀ (f : Fields) (m : Mount), f.toMount = .ok m →
      m.toSpec.toMount = .ok { m with source := m.source.filter (!·.isEmpty) } := by
  intro h
  have hread := h ⟨some "bind", some "/srv,readonly", some "/data", some false⟩
    ⟨.bind, some "/srv,readonly", "/data", false, []⟩ (by decide)
  exact absurd hread (by decide)

end Devcontainer.Mount
