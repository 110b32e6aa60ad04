import Devcontainer.Proofs.Template.Expand
import Devcontainer.Proofs.Template.Report

/-!
# What templates mean

A template is written in segments, and each segment has a value. Expanding the text of the template
puts the values of its segments one behind another, as long as the values of the workspace hold
neither `$` nor a closing brace. Values of the host may be any text.
-/

namespace Devcontainer.Template

inductive DefaultPart where
  | literal (text : List Char)
  | braced (name : WellKnown)

inductive Segment where
  | literal (text : List Char)
  | braced (name : WellKnown)
  | bare (name : WellKnown)
  | reference (name : List Char)
  | referenceOr (name : List Char) (parts : List DefaultPart)

namespace DefaultPart

def WellFormed : DefaultPart → Prop
  | literal text => '$' ∉ text ∧ '\x7d' ∉ text
  | braced _ => True

def written : DefaultPart → List Char
  | literal text => text
  | braced w => Template.braced w.name

def value (c : Context) : DefaultPart → List Char
  | literal text => text
  | braced w => w.value c

end DefaultPart

def IsVariable (name : List Char) : Prop :=
  name ≠ [] ∧ ∀ c ∈ name, c ≠ '$' ∧ c ≠ '\x7b' ∧ c ≠ '\x7d' ∧ c ≠ ':'

namespace Segment

def WellFormed : Segment → Prop
  | literal text => '$' ∉ text
  | braced _ => True
  | bare _ => True
  | reference name => IsVariable name
  | referenceOr name parts => IsVariable name ∧ ∀ part ∈ parts, part.WellFormed

def written : Segment → List Char
  | literal text => text
  | braced w => Template.braced w.name
  | bare w => Template.bare w.name
  | reference name => opening ++ name ++ ['\x7d']
  | referenceOr name parts =>
    opening ++ name ++ ':' :: parts.flatMap DefaultPart.written ++ ['\x7d']

/-- The value of a segment. A reference without one is left, its default expanded. -/
def value (c : Context) : Segment → List Char
  | literal text => text
  | braced w => w.value c
  | bare w => w.value c
  | reference name => (host? c.env name).getD (opening ++ name ++ ['\x7d'])
  | referenceOr name parts =>
    let default := parts.flatMap (DefaultPart.value c)
    (host? c.env name).getD
      (if default ≠ [] then default else opening ++ name ++ ':' :: default ++ ['\x7d'])

/-- The variable that a segment refers to in vain. -/
def missing? (c : Context) : Segment → Option String
  | reference name => if host? c.env name = none then some (String.ofList name) else none
  | referenceOr name parts =>
    if host? c.env name = none ∧ parts.flatMap (DefaultPart.value c) = [] then
      some (String.ofList name)
    else none
  | _ => none

end Segment

/-- What may stand behind a name without braces. -/
def EndsName : List Segment → Prop
  | [] => True
  | .literal (c :: _) :: _ => c.isAlpha = false
  | _ => False

/-- Segments that are read as they are meant. -/
def WellFormed : List Segment → Prop
  | [] => True
  | .bare _ :: rest => EndsName rest ∧ WellFormed rest
  | s :: rest => s.WellFormed ∧ WellFormed rest

instance (part : DefaultPart) : Decidable part.WellFormed :=
  match part with
  | .literal _ => inferInstanceAs (Decidable (_ ∧ _))
  | .braced _ => isTrue trivial

instance (name : List Char) : Decidable (IsVariable name) :=
  @instDecidableAnd _ _ _ (List.decidableBAll _ name)

instance (s : Segment) : Decidable s.WellFormed :=
  match s with
  | .literal text => inferInstanceAs (Decidable ('$' ∉ text))
  | .braced _ => isTrue trivial
  | .bare _ => isTrue trivial
  | .reference name => inferInstanceAs (Decidable (IsVariable name))
  | .referenceOr _ _ => inferInstanceAs (Decidable (_ ∧ _))

instance (segments : List Segment) : Decidable (EndsName segments) :=
  match segments with
  | [] => isTrue trivial
  | .literal (c :: _) :: _ => inferInstanceAs (Decidable (c.isAlpha = false))
  | .literal [] :: _ => isFalse id
  | .braced _ :: _ => isFalse id
  | .bare _ :: _ => isFalse id
  | .reference _ :: _ => isFalse id
  | .referenceOr _ _ :: _ => isFalse id

def WellFormed.decide : (segments : List Segment) → Decidable (WellFormed segments)
  | [] => isTrue trivial
  | .bare _ :: rest => @instDecidableAnd _ _ inferInstance (decide rest)
  | .literal text :: rest =>
    @instDecidableAnd (Segment.literal text).WellFormed _ inferInstance (decide rest)
  | .braced w :: rest =>
    @instDecidableAnd (Segment.braced w).WellFormed _ inferInstance (decide rest)
  | .reference name :: rest =>
    @instDecidableAnd (Segment.reference name).WellFormed _ inferInstance (decide rest)
  | .referenceOr name parts :: rest =>
    @instDecidableAnd (Segment.referenceOr name parts).WellFormed _ inferInstance (decide rest)

instance (segments : List Segment) : Decidable (WellFormed segments) :=
  WellFormed.decide segments

theorem WellFormed.head {s : Segment} {rest : List Segment} (h : WellFormed (s :: rest)) :
    s.WellFormed := by
  cases s with
  | bare w => trivial
  | literal text => exact h.1
  | braced w => exact h.1
  | reference name => exact h.1
  | referenceOr name parts => exact h.1

theorem WellFormed.tail {s : Segment} {rest : List Segment} (h : WellFormed (s :: rest)) :
    WellFormed rest := by
  cases s <;> exact h.2

theorem WellFormed.forall {segments : List Segment} (h : WellFormed segments) :
    ∀ s ∈ segments, s.WellFormed := by
  induction segments with
  | nil => exact fun _ hs => absurd hs List.not_mem_nil
  | cons s rest ih =>
      intro t ht
      rcases List.mem_cons.1 ht with rfl | ht
      · exact h.head
      · exact ih h.tail t ht

/-! ## Segments as atoms -/

def DefaultPart.atoms : DefaultPart → List Atom
  | literal text => text.map .char
  | braced w => [.form ⟨w, true⟩]

def Segment.atoms : Segment → List Atom
  | literal text => text.map .char
  | braced w => [.form ⟨w, true⟩]
  | bare w => [.form ⟨w, false⟩]
  | reference name => .opening :: (name ++ ['\x7d']).map .char
  | referenceOr name parts =>
    .opening :: ((name ++ [':']).map .char ++ (parts.flatMap DefaultPart.atoms ++ [.char '\x7d']))

theorem DefaultPart.written_atoms (part : DefaultPart) :
    part.atoms.flatMap Atom.written = part.written := by
  cases part with
  | literal text => exact written_map_char text
  | braced w => exact List.append_nil _

theorem DefaultPart.filled_atoms (c : Context) (part : DefaultPart) :
    part.atoms.flatMap (Atom.filled c) = part.value c := by
  cases part with
  | literal text => exact filled_map_char c text
  | braced w => exact List.append_nil _

theorem Segment.written_atoms (s : Segment) : s.atoms.flatMap Atom.written = s.written := by
  cases s with
  | literal text => exact written_map_char text
  | braced w => exact List.append_nil _
  | bare w => exact List.append_nil _
  | reference name =>
      rw [atoms, List.flatMap_cons, written_map_char, written, List.append_assoc]
      rfl
  | referenceOr name parts =>
      have hparts : (parts.flatMap DefaultPart.atoms).flatMap Atom.written =
          parts.flatMap DefaultPart.written := by
        rw [List.flatMap_assoc]
        exact List.flatMap_congr fun part _ => part.written_atoms
      rw [atoms, List.flatMap_cons, List.flatMap_append, written_map_char, List.flatMap_append,
        hparts]
      simp [written, Atom.written]

theorem DefaultPart.closed_atoms {part : DefaultPart} (h : part.WellFormed) :
    ∀ a ∈ part.atoms, a.Closed := by
  cases part with
  | literal text => exact closed_map_char h.1
  | braced w =>
      intro a ha
      rw [List.mem_singleton.1 ha]
      rfl

theorem IsVariable.not_mem {name : List Char} (h : IsVariable name) : '$' ∉ name :=
  fun hmem => (h.2 '$' hmem).1 rfl

theorem Segment.closed_atoms {s : Segment} (h : s.WellFormed) (hbare : ∀ w, s ≠ .bare w) :
    ∀ a ∈ s.atoms, a.Closed := by
  intro a ha
  cases s with
  | literal text => exact closed_map_char h a ha
  | braced w =>
      rw [List.mem_singleton.1 ha]
      rfl
  | bare w => exact absurd rfl (hbare w)
  | reference name =>
      have hname : '$' ∉ name ++ ['\x7d'] := by simp [IsVariable.not_mem h]
      rcases List.mem_cons.1 ha with rfl | ha
      · trivial
      · exact closed_map_char hname a ha
  | referenceOr name parts =>
      have hname : '$' ∉ name ++ [':'] := by simp [IsVariable.not_mem h.1]
      rcases List.mem_cons.1 ha with rfl | ha
      · trivial
      · rcases List.mem_append.1 ha with ha | ha
        · exact closed_map_char hname a ha
        · rcases List.mem_append.1 ha with ha | ha
          · obtain ⟨part, hpart, ha⟩ := List.mem_flatMap.1 ha
            exact DefaultPart.closed_atoms (h.2 part hpart) a ha
          · rw [List.mem_singleton.1 ha]
            exact (by decide : '\x7d' ≠ '$')

theorem EndsName.head? {rest : List Segment} (h : EndsName rest) :
    ∀ a ∈ (rest.flatMap Segment.atoms).head?, ∃ c, a = .char c ∧ c.isAlpha = false := by
  intro a ha
  cases rest with
  | nil => cases ha
  | cons s rest =>
      cases s with
      | literal text =>
          cases text with
          | nil => exact absurd h id
          | cons c text => exact ⟨c, (Option.some.inj ha).symm, h⟩
      | braced w => exact absurd h id
      | bare w => exact absurd h id
      | reference name => exact absurd h id
      | referenceOr name parts => exact absurd h id

theorem apart_atoms {segments : List Segment} (h : WellFormed segments) :
    Apart (segments.flatMap Segment.atoms) := by
  induction segments with
  | nil => trivial
  | cons s rest ih =>
      have hrest := ih h.tail
      rw [List.flatMap_cons]
      by_cases hbare : ∃ w, s = .bare w
      · obtain ⟨w, rfl⟩ := hbare
        exact ⟨fun _ => EndsName.head? h.1, hrest⟩
      · exact apart_append (Segment.closed_atoms h.head fun w hw => hbare ⟨w, hw⟩) hrest

/-! ## Segments as pieces -/

def Segment.pieces (c : Context) : Segment → List Piece
  | literal text => text.map .char
  | braced w => (w.value c).map .char
  | bare w => (w.value c).map .char
  | reference name => [.reference ⟨name, none⟩]
  | referenceOr name parts => [.reference ⟨name, some (parts.flatMap (DefaultPart.value c))⟩]

theorem Segment.filled_atoms (c : Context) (s : Segment) :
    s.atoms.flatMap (Atom.filled c) = (s.pieces c).flatMap Piece.written := by
  cases s with
  | literal text =>
      rw [atoms, pieces, filled_map_char, written_map_char_pieces]
  | braced w =>
      rw [pieces, written_map_char_pieces]
      exact List.append_nil _
  | bare w =>
      rw [pieces, written_map_char_pieces]
      exact List.append_nil _
  | reference name =>
      rw [atoms, List.flatMap_cons, filled_map_char]
      simp [pieces, Piece.written, Reference.written, Atom.filled]
  | referenceOr name parts =>
      have hparts : (parts.flatMap DefaultPart.atoms).flatMap (Atom.filled c) =
          parts.flatMap (DefaultPart.value c) := by
        rw [List.flatMap_assoc]
        exact List.flatMap_congr fun part _ => part.filled_atoms c
      rw [atoms, List.flatMap_cons, List.flatMap_append, filled_map_char, List.flatMap_append,
        hparts]
      simp [pieces, Piece.written, Reference.written, Atom.filled]

theorem wellFormed_map_char {text : List Char} (h : '$' ∉ text) :
    ∀ p ∈ text.map Piece.char, p.WellFormed := by
  intro p hp
  obtain ⟨c, hc, rfl⟩ := List.mem_map.1 hp
  exact fun heq => h (heq ▸ hc)

theorem IsVariable.name {name : List Char} (h : IsVariable name) :
    ∀ c ∈ name, c ≠ '\x7d' ∧ c ≠ ':' := by
  intro c hc
  obtain ⟨-, -, hbrace, hcolon⟩ := h.2 c hc
  exact ⟨hbrace, hcolon⟩

/-- A default holds no closing brace, so the reference is read up to its own end. -/
theorem Segment.wellFormed_pieces {c : Context} (hdollar : Lacks c '$') (hbrace : Lacks c '\x7d')
    {s : Segment} (h : s.WellFormed) : ∀ p ∈ s.pieces c, p.WellFormed := by
  cases s with
  | literal text => exact wellFormed_map_char h
  | braced w => exact wellFormed_map_char (hdollar w)
  | bare w => exact wellFormed_map_char (hdollar w)
  | reference name =>
      intro p hp
      rw [List.mem_singleton.1 hp]
      exact ⟨h.1, IsVariable.name h, fun d hd => nomatch hd⟩
  | referenceOr name parts =>
      intro p hp
      rw [List.mem_singleton.1 hp]
      refine ⟨h.1.1, IsVariable.name h.1, fun d hd hmem => ?_⟩
      rw [← Option.some.inj hd] at hmem
      obtain ⟨part, hpart, hmem⟩ := List.mem_flatMap.1 hmem
      cases part with
      | literal text => exact (h.2 _ hpart).2 hmem
      | braced w => exact hbrace w hmem

theorem Segment.text_pieces (c : Context) (s : Segment) :
    (s.pieces c).flatMap (Piece.text c.env) = s.value c := by
  cases s with
  | literal text => exact text_map_char c.env text
  | braced w => exact text_map_char c.env _
  | bare w => exact text_map_char c.env _
  | reference name =>
      rw [pieces, List.flatMap_singleton, Piece.text, value?_eq, value]
      cases host? c.env name <;> simp [Reference.written]
  | referenceOr name parts =>
      rw [pieces, List.flatMap_singleton, Piece.text, value?_eq, value]
      cases host? c.env name with
      | some v => rfl
      | none =>
          by_cases h : parts.flatMap (DefaultPart.value c) = [] <;>
            simp [h, Option.filter_some, Reference.written]

theorem Segment.missing_pieces (c : Context) (s : Segment) :
    (s.pieces c).filterMap (Piece.missing? c.env) = (s.missing? c).toList := by
  cases s with
  | literal text => exact missing_map_char c.env text
  | braced w => exact missing_map_char c.env _
  | bare w => exact missing_map_char c.env _
  | reference name =>
      rw [pieces, List.filterMap_cons, Piece.missing?, value?_eq, missing?]
      cases host? c.env name <;> simp
  | referenceOr name parts =>
      rw [pieces, List.filterMap_cons, Piece.missing?, value?_eq, missing?]
      cases host? c.env name with
      | some v => simp
      | none =>
          by_cases h : parts.flatMap (DefaultPart.value c) = [] <;> simp [h, Option.filter_some]

/-! ## Templates -/

theorem pieces_template {c : Context} (hdollar : Lacks c '$') (hbrace : Lacks c '\x7d')
    {segments : List Segment} (h : WellFormed segments) :
    pieces (replaceTokens (tokens c) (segments.flatMap Segment.written)) =
      segments.flatMap (Segment.pieces c) := by
  have hwritten : segments.flatMap Segment.written =
      (segments.flatMap Segment.atoms).flatMap Atom.written := by
    rw [List.flatMap_assoc]
    exact List.flatMap_congr fun s _ => s.written_atoms.symm
  have hfilled : (segments.flatMap Segment.atoms).flatMap (Atom.filled c) =
      (segments.flatMap (Segment.pieces c)).flatMap Piece.written := by
    rw [List.flatMap_assoc, List.flatMap_assoc]
    exact List.flatMap_congr fun s _ => s.filled_atoms c
  have hread : ∀ p ∈ segments.flatMap (Segment.pieces c), p.WellFormed := by
    intro p hp
    obtain ⟨s, hs, hp⟩ := List.mem_flatMap.1 hp
    exact Segment.wellFormed_pieces hdollar hbrace (h.forall s hs) p hp
  rw [hwritten, replaceTokens_tokens hdollar (apart_atoms h), hfilled, pieces_flatMap_written hread]

/-- A template comes to the values of its segments, and what it refers to in vain is added to the
report, each name once and in order. -/
theorem expand_segments {c : Context} (hdollar : Lacks c '$') (hbrace : Lacks c '\x7d')
    {segments : List Segment} (h : WellFormed segments) (r : Report) :
    (expand c (String.ofList (segments.flatMap Segment.written))).text =
        String.ofList (segments.flatMap (Segment.value c)) ∧
      (r.add (expand c (String.ofList (segments.flatMap Segment.written)))).missing =
        r.missing ++
          ((segments.filterMap (Segment.missing? c)).filter (· ∉ r.missing)).eraseDups := by
  have hpieces := pieces_template hdollar hbrace h
  constructor
  · rw [expand, String.toList_ofList, hpieces, List.flatMap_assoc]
    exact congrArg String.ofList (List.flatMap_congr fun s _ => s.text_pieces c)
  · have hmissing : (segments.flatMap (Segment.pieces c)).filterMap (Piece.missing? c.env) =
        segments.filterMap (Segment.missing? c) := by
      rw [List.filterMap_flatMap, List.filterMap_eq_flatMap_toList]
      exact List.flatMap_congr fun s _ => s.missing_pieces c
    rw [Report.missing_add, expand, String.toList_ofList, hpieces, hmissing]
    exact Report.foldl_addMissing r.missing _

def appContext : Context :=
  Context.ofRoot "/home/u/app" fun name =>
    if name = "HOME" then some "$\x7blocalEnv:USER\x7d" else none

def appTemplate : List Segment :=
  [.bare .containerFolder, .literal "/".toList, .reference "HOME".toList, .literal "a".toList,
    .braced .localBasename,
    .referenceOr "DIR".toList [.literal "/\x7b:".toList, .braced .containerBasename],
    .referenceOr "USER".toList [], .reference "USER".toList]

theorem expand_segments_app :
    Lacks appContext '$' ∧ Lacks appContext '\x7d' ∧ WellFormed appTemplate ∧
    (expand appContext (String.ofList (appTemplate.flatMap Segment.written))).text =
      String.ofList (appTemplate.flatMap (Segment.value appContext)) ∧
    (Report.empty.add
      (expand appContext (String.ofList (appTemplate.flatMap Segment.written)))).missing =
      ["USER"] := by
  have hdollar : Lacks appContext '$' := by
    intro w
    cases w <;> decide
  have hbrace : Lacks appContext '\x7d' := by
    intro w
    cases w <;> decide
  have hsegments : WellFormed appTemplate := by decide
  obtain ⟨htext, hmissing⟩ := expand_segments hdollar hbrace hsegments Report.empty
  have hnames : ((appTemplate.filterMap (Segment.missing? appContext)).filter
      (· ∉ Report.empty.missing)).eraseDups = ["USER"] := by decide
  refine ⟨hdollar, hbrace, hsegments, htext, ?_⟩
  rw [hmissing, hnames]
  rfl

end Devcontainer.Template
