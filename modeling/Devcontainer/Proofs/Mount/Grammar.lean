import Devcontainer.Proofs.Mount.Reading

/-!
# The grammar of the text of a mount

A token is about the kind, the source, the target or the flag when it has a key of theirs, and about
nothing known otherwise. A text is the text of a mount exactly when its tokens about the kind name
known kinds, one of them at least, and the last token about the target gives one. The order of tokens
about different things has no say.
-/

namespace Devcontainer.Mount

open Text

/-! ## Tokens -/

def keyOf (token : List Char) : String :=
  String.ofList <| match cut '=' token with
    | some (key, _) => trim key
    | none => token

def valueOf? (token : List Char) : Option String :=
  (cut '=' token).map fun (_, value) => String.ofList (trim value)

/-- What a token is about: with a value one of the known keys counts, without one only the flag. -/
def subjectOf (token : List Char) : Subject :=
  match valueOf? token with
  | none => if keyOf token ∈ ["readonly", "ro"] then .readOnly else .other
  | some _ =>
    if keyOf token = "type" then .kind
    else if keyOf token ∈ ["source", "src"] then .source
    else if keyOf token ∈ ["target", "dst", "destination"] then .target
    else if keyOf token ∈ ["readonly", "ro"] then .readOnly
    else .other

def about (subject : Subject) (text : String) : List (List Char) :=
  (tokens text.toList).filter (subjectOf · = subject)

def given (subject : Subject) (text : String) : List String :=
  (about subject text).filterMap valueOf?

theorem ofToken_eq (token : List Char) : Setting.ofToken token =
    match subjectOf token with
    | .kind => .kind ((valueOf? token).getD "")
    | .source => .source ((valueOf? token).getD "")
    | .target => .target ((valueOf? token).getD "")
    | .readOnly => .readOnly (valueOf? token ∈ [none, some "true", some "1"])
    | .other => .extra (String.ofList token) := by
  unfold Setting.ofToken subjectOf keyOf valueOf?
  cases cut '=' token with
  | none =>
      simp only [Option.map_none, List.mem_cons, List.not_mem_nil, or_false]
      split_ifs <;> simp
  | some parts =>
      simp only [Option.map_some, List.mem_cons, List.not_mem_nil, or_false]
      split_ifs <;> simp

theorem subject_ofToken (token : List Char) :
    (Setting.ofToken token).subject = subjectOf token := by
  rw [ofToken_eq]
  cases subjectOf token <;> rfl

theorem valueOf?_of_subjectOf {token : List Char} {subject : Subject}
    (h : subjectOf token = subject) (hflag : subject ≠ .readOnly) (hother : subject ≠ .other) :
    valueOf? token = some ((valueOf? token).getD "") := by
  cases hvalue : valueOf? token with
  | some value => rfl
  | none =>
      unfold subjectOf at h
      rw [hvalue] at h
      simp only at h
      split_ifs at h
      · exact absurd h.symm hflag
      · exact absurd h.symm hother

theorem views_ofToken (token : List Char) :
    (Setting.ofToken token).kind? = (if subjectOf token = .kind then valueOf? token else none) ∧
    (Setting.ofToken token).source? =
      (if subjectOf token = .source then valueOf? token else none) ∧
    (Setting.ofToken token).target? =
      (if subjectOf token = .target then valueOf? token else none) ∧
    (Setting.ofToken token).readOnly? = (if subjectOf token = .readOnly then
      some (decide (valueOf? token ∈ [none, some "true", some "1"])) else none) ∧
    (Setting.ofToken token).extra? =
      if subjectOf token = .other then some (String.ofList token) else none := by
  rw [ofToken_eq]
  cases h : subjectOf token with
  | readOnly => exact ⟨rfl, rfl, rfl, rfl, rfl⟩
  | other => exact ⟨rfl, rfl, rfl, rfl, rfl⟩
  | kind => exact ⟨(valueOf?_of_subjectOf h nofun nofun).symm, rfl, rfl, rfl, rfl⟩
  | source => exact ⟨rfl, (valueOf?_of_subjectOf h nofun nofun).symm, rfl, rfl, rfl⟩
  | target => exact ⟨rfl, rfl, (valueOf?_of_subjectOf h nofun nofun).symm, rfl, rfl⟩

theorem filterMap_settings {α : Type} {view? : Setting → Option α} {f : List Char → Option α}
    {subject : Subject} (h : ∀ token, view? (Setting.ofToken token) =
      if subjectOf token = subject then f token else none) (text : String) :
    (settings text).filterMap view? = (about subject text).filterMap f := by
  rw [settings, List.filterMap_map, about, List.filterMap_filter]
  refine List.filterMap_congr fun token _ => ?_
  simpa using h token

/-! ## Texts -/

theorem ofName?_eq_some_iff {name : String} {kind : Kind} :
    Kind.ofName? name = some kind ↔ name = kind.name := by
  constructor
  · intro h
    exact (by simpa using List.find?_some h : kind.name = name).symm
  · rintro rfl
    exact ofName?_name kind

theorem bind_ofName?_eq_some_iff {name? : Option String} {kind : Kind} :
    name?.bind Kind.ofName? = some kind ↔ name? = some kind.name := by
  rw [Option.bind_eq_some_iff]
  simp only [ofName?_eq_some_iff, exists_eq_right]

theorem isSome_ofName?_iff {name : String} :
    (Kind.ofName? name).isSome ↔ name ∈ ["bind", "volume", "tmpfs"] := by
  rw [Option.isSome_iff_exists]
  constructor
  · rintro ⟨kind, hkind⟩
    obtain rfl := ofName?_eq_some_iff.1 hkind
    cases kind <;> decide
  · intro h
    simp only [List.mem_cons, List.not_mem_nil, or_false] at h
    rcases h with rfl | rfl | rfl
    · exact ⟨.bind, rfl⟩
    · exact ⟨.volume, rfl⟩
    · exact ⟨.tmpfs, rfl⟩

/-- The mount that a text means by its tokens: of each subject the last one counts. -/
structure Means (text : String) (m : Mount) : Prop where
  kinds : ∀ name ∈ given .kind text, name ∈ ["bind", "volume", "tmpfs"]
  kind : (given .kind text).getLast? = some m.kind.name
  source : (given .source text).getLast? = m.source
  target : (given .target text).getLast? = some m.target
  target_ne : m.target ≠ ""
  readOnly : (about .readOnly text).getLast?.any (valueOf? · ∈ [none, some "true", some "1"]) =
    m.readOnly
  extra : (about .other text).map String.ofList = m.extra

theorem readOnly?_settings (text : String) :
    ((settings text).filterMap Setting.readOnly?).getLast?.getD false =
      (about .readOnly text).getLast?.any (valueOf? · ∈ [none, some "true", some "1"]) := by
  rw [filterMap_settings (fun token => (views_ofToken token).2.2.2.1), List.filterMap_eq_map',
    List.getLast?_map]
  cases (about .readOnly text).getLast? <;> rfl

theorem parse_eq_ok_iff {text : String} {m : Mount} : parse text = .ok m ↔ Means text m := by
  have hkinds : (settings text).filterMap Setting.kind? = given .kind text :=
    filterMap_settings (fun token => (views_ofToken token).1) text
  have hsources : (settings text).filterMap Setting.source? = given .source text :=
    filterMap_settings (fun token => (views_ofToken token).2.1) text
  have htargets : (settings text).filterMap Setting.target? = given .target text :=
    filterMap_settings (fun token => (views_ofToken token).2.2.1) text
  have hflag := readOnly?_settings text
  have hextras : (settings text).filterMap Setting.extra? =
      (about .other text).map String.ofList := by
    rw [filterMap_settings (fun token => (views_ofToken token).2.2.2.2), List.filterMap_eq_map']
  rw [parse, ofSettings_eq_ok_iff]
  -- the two descriptions agree field by field, the kinds up to their names
  constructor
  · intro h
    have hkind := h.kind
    rw [hkinds, bind_ofName?_eq_some_iff] at hkind
    refine ⟨fun name hname => ?_, hkind, hsources ▸ h.source, htargets ▸ h.target, h.target_ne,
      hflag ▸ h.readOnly, hextras ▸ h.extra⟩
    exact isSome_ofName?_iff.1 (h.kinds name (hkinds ▸ hname))
  · intro h
    refine ⟨fun name hname => ?_, ?_, htargets ▸ h.target, h.target_ne, hsources ▸ h.source,
      hflag ▸ h.readOnly, hextras ▸ h.extra⟩
    · exact isSome_ofName?_iff.2 (h.kinds name (hkinds ▸ hname))
    · rw [hkinds, bind_ofName?_eq_some_iff]
      exact h.kind

theorem exists_parse_eq_ok_iff {text : String} : (∃ m, parse text = .ok m) ↔
    (∀ name ∈ given .kind text, name ∈ ["bind", "volume", "tmpfs"]) ∧ given .kind text ≠ [] ∧
      ∃ target, (given .target text).getLast? = some target ∧ target ≠ "" := by
  simp only [parse_eq_ok_iff]
  constructor
  · rintro ⟨m, h⟩
    refine ⟨h.kinds, ?_, m.target, h.target, h.target_ne⟩
    exact List.ne_nil_of_mem (List.mem_of_getLast? h.kind)
  · rintro ⟨hkinds, hne, target, htarget, htarget_ne⟩
    have hknown := hkinds _ (List.getLast_mem hne)
    obtain ⟨kind, hkind⟩ := Option.isSome_iff_exists.1 (isSome_ofName?_iff.2 hknown)
    have hlast : (given .kind text).getLast? = some kind.name := by
      rw [List.getLast?_eq_some_getLast hne, ofName?_eq_some_iff.1 hkind]
    exact ⟨⟨kind, _, target, _, _⟩, hkinds, hlast, rfl, htarget, htarget_ne, rfl, rfl⟩

/-! ## The order of tokens -/

/-- What comes from a list of tokens when tokens about different subjects are moved past each
other. -/
inductive Rearranged (tokens : List (List Char)) : List (List Char) → Prop where
  | refl : Rearranged tokens tokens
  | swap {before after : List (List Char)} {first second : List Char} :
    subjectOf first ≠ subjectOf second → Rearranged tokens (before ++ first :: second :: after) →
      Rearranged tokens (before ++ second :: first :: after)

theorem Rearranged.ofSettings_eq {tokens tokens' : List (List Char)}
    (h : Rearranged tokens tokens') :
    ofSettings (tokens'.map Setting.ofToken) = ofSettings (tokens.map Setting.ofToken) := by
  induction h with
  | refl => rfl
  | swap hne _ ih =>
      rw [← subject_ofToken, ← subject_ofToken] at hne
      rw [← ih]
      simp only [List.map_append, List.map_cons, ofSettings, Draft.addAll_swap _ _ _ hne]

/-- A text is the text of a mount exactly when all its tokens about the kind name known kinds, there
is one of them, and the last token about the target gives one. It is then the text of the mount that
it means and of no other. A text whose tokens are rearranged is read alike. -/
theorem parse_grammar (text : String) :
    ((∃ m, parse text = .ok m) ↔
      (∀ name ∈ given .kind text, name ∈ ["bind", "volume", "tmpfs"]) ∧ given .kind text ≠ [] ∧
        ∃ target, (given .target text).getLast? = some target ∧ target ≠ "") ∧
    (∀ m, parse text = .ok m ↔ Means text m) ∧
    ∀ other : String, Rearranged (tokens text.toList) (tokens other.toList) →
      parse other = parse text :=
  ⟨exists_parse_eq_ok_iff, fun _ => parse_eq_ok_iff, fun _ h => h.ofSettings_eq⟩

example : parse "type,ro=1,type=bind,target,dst=/a,readonly=no" =
    .ok ⟨.bind, none, "/a", false, ["type", "target"]⟩ := by decide

end Devcontainer.Mount
