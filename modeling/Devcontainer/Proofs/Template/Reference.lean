import Devcontainer.Template
import Devcontainer.Proofs.Text.Replace
import Mathlib.Data.List.TakeWhile

/-!
# Reading references

A reference is read where its text stands, and nowhere else. A scan therefore cuts a text into
pieces whose texts, put together again, are that text.
-/

namespace Devcontainer.Template

open Text

/-- What a scan can read: the name ends at the first brace or colon, the default at the first
brace. -/
structure Reference.WellFormed (r : Reference) : Prop where
  name_ne : r.name ≠ []
  name : ∀ c ∈ r.name, c ≠ '\x7d' ∧ c ≠ ':'
  default : ∀ d, r.default? = some d → '\x7d' ∉ d

def Reference.body (r : Reference) : List Char :=
  r.name ++ r.default?.elim [] (':' :: ·)

theorem Reference.written_eq (r : Reference) : r.written = opening ++ (r.body ++ ['\x7d']) := by
  obtain ⟨name, default?⟩ := r
  cases default? <;> simp [written, body]

theorem opening_ne_nil : opening ≠ [] := by decide

theorem Reference.written_ne_nil (r : Reference) : r.written ≠ [] := by
  rw [written_eq]
  exact List.append_ne_nil_of_left_ne_nil opening_ne_nil _

/-! ## A reference at the head of a text -/

theorem takeWhile_append_cons {α : Type} {p : α → Bool} {xs : List α} {x : α} (rest : List α)
    (h : ∀ a ∈ xs, p a = true) (hx : p x = false) : (xs ++ x :: rest).takeWhile p = xs := by
  rw [List.takeWhile_append_of_pos h, List.takeWhile_cons_of_neg (by rw [hx]; decide),
    List.append_nil]

theorem referenceAt_opening_append (text : List Char) :
    referenceAt (opening ++ text) =
      (let name := text.takeWhile fun c => c != '\x7d' && c != ':'
      if name.isEmpty then none
      else
        match text.drop name.length with
        | '\x7d' :: _ => some (⟨name, none⟩, opening.length + name.length + 1)
        | ':' :: after =>
          let value := after.takeWhile (· != '\x7d')
          match after.drop value.length with
          | '\x7d' :: _ =>
            some (⟨name, some value⟩, opening.length + name.length + value.length + 2)
          | _ => none
        | _ => none) := by
  unfold referenceAt
  rw [if_pos (List.isPrefixOf_iff_prefix.2 (List.prefix_append _ _))]
  generalize hrest : (opening ++ text).drop opening.length = rest
  rw [List.drop_left] at hrest
  subst hrest
  rfl

theorem referenceAt_of_not_opening {text : List Char} (h : ¬ opening <+: text) :
    referenceAt text = none := by
  unfold referenceAt
  exact if_neg fun hp => h (List.isPrefixOf_iff_prefix.1 hp)

theorem referenceAt_written_append {r : Reference} (h : r.WellFormed) (rest : List Char) :
    referenceAt (r.written ++ rest) = some (r, r.written.length) := by
  obtain ⟨name, default?⟩ := r
  have hname : ∀ c ∈ name, (c != '\x7d' && c != ':') = true := by
    intro c hc
    obtain ⟨hbrace, hcolon⟩ := h.name c hc
    simp [hbrace, hcolon]
  have hempty : name.isEmpty = false := by simpa using h.name_ne
  rw [Reference.written_eq, List.append_assoc, referenceAt_opening_append]
  cases default? with
  | none =>
      have htake : (name ++ '\x7d' :: rest).takeWhile (fun c => c != '\x7d' && c != ':') = name :=
        takeWhile_append_cons rest hname rfl
      simp only [Reference.body, Option.elim_none, List.append_nil, List.append_assoc,
        List.singleton_append]
      rw [htake, hempty, List.drop_left]
      simp
      omega
  | some d =>
      have hd : ∀ c ∈ d, (c != '\x7d') = true := by
        intro c hc
        have hbrace : c ≠ '\x7d' := fun heq => h.default d rfl (heq ▸ hc)
        simp [hbrace]
      have htake : (name ++ ':' :: (d ++ '\x7d' :: rest)).takeWhile
          (fun c => c != '\x7d' && c != ':') = name := takeWhile_append_cons _ hname rfl
      have hvalue : (d ++ '\x7d' :: rest).takeWhile (· != '\x7d') = d :=
        takeWhile_append_cons rest hd rfl
      simp only [Reference.body, Option.elim_some, List.append_assoc, List.cons_append,
        List.nil_append]
      rw [htake, hempty, List.drop_left]
      simp only [hvalue, List.drop_left]
      simp
      omega

theorem wellFormed_of_referenceAt {text : List Char} {r : Reference} {width : Nat}
    (h : referenceAt text = some (r, width)) :
    r.WellFormed ∧ width = r.written.length ∧ r.written <+: text := by
  by_cases hopening : opening <+: text
  · obtain ⟨x, rfl⟩ := hopening
    rw [referenceAt_opening_append] at h
    dsimp only at h
    generalize hname : x.takeWhile (fun c => c != '\x7d' && c != ':') = name at h
    have hx : name ++ x.drop name.length = x :=
      List.prefix_iff_eq_append.1 (hname ▸ List.takeWhile_prefix _)
    have hchars : ∀ c ∈ name, c ≠ '\x7d' ∧ c ≠ ':' := by
      intro c hc
      rw [← hname] at hc
      simpa using List.mem_takeWhile_imp hc
    split at h
    next => cases h
    next hempty =>
      have hne : name ≠ [] := fun hnil => hempty (hnil ▸ rfl)
      split at h
      next rest hrest =>
        cases h
        refine ⟨⟨hne, hchars, fun d hd => nomatch hd⟩, ?_, ⟨rest, ?_⟩⟩
        · simp [Reference.written]
          omega
        · rw [← hx, hrest]
          simp [Reference.written]
      next after hafter =>
        generalize hvalue : after.takeWhile (· != '\x7d') = value at h
        have hsplit : value ++ after.drop value.length = after :=
          List.prefix_iff_eq_append.1 (hvalue ▸ List.takeWhile_prefix _)
        split at h
        next rest hrest =>
          cases h
          refine ⟨⟨hne, hchars, ?_⟩, ?_, ⟨rest, ?_⟩⟩
          · intro d hd hmem
            rw [← Option.some.inj hd, ← hvalue] at hmem
            simpa using List.mem_takeWhile_imp hmem
          · simp [Reference.written]
            omega
          · rw [← hx, hafter, ← hsplit, hrest]
            simp [Reference.written]
        next => cases h
      next => cases h
  · rw [referenceAt_of_not_opening hopening] at h
    cases h

theorem exists_first {α : Type} {xs : List α} {a : α} (ha : a ∈ xs) {p : α → Bool}
    (hp : p a = true) :
    ∃ before x after, xs = before ++ x :: after ∧ (∀ b ∈ before, p b = false) ∧ p x = true := by
  obtain ⟨x, hx⟩ := Option.isSome_iff_exists.1 (List.find?_isSome.2 ⟨a, ha, hp⟩)
  obtain ⟨hpx, before, after, rfl, hbefore⟩ := List.find?_eq_some_iff_append.1 hx
  exact ⟨before, x, after, rfl, fun b hb => by simpa using hbefore b hb, hpx⟩

/-- Behind an opening stands a reference when there is a name, and an end somewhere behind it. -/
theorem isSome_referenceAt_opening_append {text : List Char} :
    (referenceAt (opening ++ text)).isSome ↔
      ∃ c rest, text = c :: rest ∧ c ≠ '\x7d' ∧ c ≠ ':' ∧ '\x7d' ∈ rest := by
  constructor
  · intro h
    obtain ⟨⟨r, width⟩, hr⟩ := Option.isSome_iff_exists.1 h
    obtain ⟨hwell, -, hpre⟩ := wellFormed_of_referenceAt hr
    rw [r.written_eq, List.prefix_append_right_inj] at hpre
    obtain ⟨rest, rfl⟩ := hpre
    obtain ⟨c, name, hname⟩ := List.exists_cons_of_ne_nil hwell.name_ne
    obtain ⟨hbrace, hcolon⟩ := hwell.name c (hname ▸ List.mem_cons_self ..)
    refine ⟨c, name ++ r.default?.elim [] (':' :: ·) ++ ['\x7d'] ++ rest, ?_, hbrace, hcolon, ?_⟩
    · simp [Reference.body, hname]
    · simp
  · rintro ⟨c, rest, rfl, hbrace, hcolon, hend⟩
    -- the name reaches up to the first colon or brace, and there is a brace
    obtain ⟨name, e, y, rfl, hname, he⟩ := exists_first hend
      (p := fun a => a == '\x7d' || a == ':') (by decide)
    have hchars : ∀ a ∈ c :: name, a ≠ '\x7d' ∧ a ≠ ':' := by
      intro a ha
      rcases List.mem_cons.1 ha with rfl | ha
      · exact ⟨hbrace, hcolon⟩
      · simpa using hname a ha
    have hread : ∀ r : Reference, r.WellFormed → r.written <+: opening ++ c :: (name ++ e :: y) →
        (referenceAt (opening ++ c :: (name ++ e :: y))).isSome := by
      rintro r hr ⟨z, hz⟩
      rw [← hz, referenceAt_written_append hr]
      rfl
    rcases Bool.or_eq_true_iff.1 he with he | he
    · obtain rfl := eq_of_beq he
      refine hread ⟨c :: name, none⟩ ⟨List.cons_ne_nil _ _, hchars, fun d hd => nomatch hd⟩ ⟨y, ?_⟩
      simp [Reference.written]
    · obtain rfl := eq_of_beq he
      have hy : '\x7d' ∈ y := by
        rcases List.mem_append.1 hend with hmem | hmem
        · exact absurd rfl (hchars _ (List.mem_cons_of_mem _ hmem)).1
        · exact (List.mem_cons.1 hmem).resolve_left (by decide)
      obtain ⟨d, e, z, rfl, hd, he⟩ := exists_first hy (p := fun a => a == '\x7d') (by decide)
      obtain rfl := eq_of_beq he
      refine hread ⟨c :: name, some d⟩ ⟨List.cons_ne_nil _ _, hchars, ?_⟩ ⟨z, ?_⟩
      · intro d' hd' hmem
        rw [← Option.some.inj hd'] at hmem
        exact absurd (hd _ hmem) (by decide)
      · simp [Reference.written]

/-! ## The pieces of a text -/

def Piece.written : Piece → List Char
  | .char c => [c]
  | .reference r => r.written

theorem pieceAt_of_isNone {text : List Char} (h : referenceAt text = none) :
    pieceAt text = (.char (text.headD ' '), 1) := by
  unfold pieceAt
  rw [h]

theorem pieceAt_cons_of_ne {c : Char} (hc : c ≠ '$') (rest : List Char) :
    pieceAt (c :: rest) = (.char c, 1) := by
  apply pieceAt_of_isNone
  apply referenceAt_of_not_opening
  rintro ⟨x, hx⟩
  exact hc (List.cons.inj hx).1.symm

theorem pieces_append_of_not_mem {head : List Char} (h : '$' ∉ head) (rest : List Char) :
    pieces (head ++ rest) = head.map .char ++ pieces rest :=
  scan_append_of_forall (fun _ hc => pieceAt_cons_of_ne fun heq => h (heq ▸ hc)) rest

theorem pieces_written_append {r : Reference} (h : r.WellFormed) (rest : List Char) :
    pieces (r.written ++ rest) = .reference r :: pieces rest := by
  apply scan_append_of_next r.written_ne_nil
  unfold pieceAt
  rw [referenceAt_written_append h]

theorem pieces_cons_of_isNone {c : Char} {rest : List Char} (h : referenceAt (c :: rest) = none) :
    pieces (c :: rest) = .char c :: pieces rest := by
  have hnext : pieceAt ([c] ++ rest) = (.char c, [c].length) := pieceAt_of_isNone h
  exact scan_append_of_next (List.cons_ne_nil _ _) hnext

def Piece.WellFormed : Piece → Prop
  | .char c => c ≠ '$'
  | .reference r => r.WellFormed

theorem pieces_flatMap_written {ps : List Piece} (h : ∀ p ∈ ps, p.WellFormed) :
    pieces (ps.flatMap Piece.written) = ps := by
  induction ps with
  | nil => rfl
  | cons p ps ih =>
      have hp := h p (List.mem_cons_self ..)
      have hps := ih fun q hq => h q (List.mem_cons_of_mem _ hq)
      rw [List.flatMap_cons]
      cases p with
      | char c =>
          have hc : '$' ∉ [c] := fun hmem => hp (List.mem_singleton.1 hmem).symm
          rw [Piece.written, pieces_append_of_not_mem hc, hps]
          rfl
      | reference r => rw [Piece.written, pieces_written_append hp, hps]

/-- Reading a text in pieces loses nothing. -/
theorem flatMap_written_pieces (text : List Char) : (pieces text).flatMap Piece.written = text := by
  apply flatMap_scan
  intro text hne
  cases hr : referenceAt text with
  | none =>
      obtain ⟨c, rest, rfl⟩ := List.exists_cons_of_ne_nil hne
      rw [pieceAt_of_isNone hr]
      exact ⟨rest, rfl, rfl, Nat.one_pos⟩
  | some p =>
      obtain ⟨r, width⟩ := p
      obtain ⟨-, rfl, rest, htext⟩ := wellFormed_of_referenceAt hr
      have hpiece : pieceAt text = (.reference r, r.written.length) := by
        unfold pieceAt
        rw [hr]
      rw [hpiece]
      exact ⟨rest, htext.symm, rfl, List.length_pos_iff.2 r.written_ne_nil⟩

/-- What stands behind the first piece is read as if it stood alone, and a piece that is a character
is one because no reference stands there. -/
theorem pieces_eq_cons {text : List Char} {p : Piece} {ps : List Piece}
    (h : pieces text = p :: ps) :
    text = p.written ++ ps.flatMap Piece.written ∧ pieces (ps.flatMap Piece.written) = ps ∧
      ∀ c, p = .char c → referenceAt text = none := by
  cases text with
  | nil => cases h
  | cons c rest =>
      cases hr : referenceAt (c :: rest) with
      | none =>
          rw [pieces_cons_of_isNone hr] at h
          cases h
          rw [flatMap_written_pieces]
          exact ⟨rfl, rfl, fun _ _ => rfl⟩
      | some q =>
          obtain ⟨r, width⟩ := q
          obtain ⟨hwell, -, rest', hrest⟩ := wellFormed_of_referenceAt hr
          rw [← hrest, pieces_written_append hwell] at h
          cases h
          rw [flatMap_written_pieces]
          exact ⟨hrest.symm, rfl, fun _ hc => nomatch hc⟩

theorem wellFormed_of_mem_pieces {text : List Char} {r : Reference}
    (h : .reference r ∈ pieces text) : r.WellFormed := by
  obtain ⟨rest, -, -, hpiece⟩ := exists_suffix_of_mem_scanFrom h
  unfold pieceAt at hpiece
  split at hpiece
  next found width hread =>
    cases hpiece
    exact (wellFormed_of_referenceAt hread).1
  next => cases hpiece

theorem exists_append_of_mem_pieces {text : List Char} {p : Piece} (h : p ∈ pieces text) :
    ∃ before after, text = before ++ p.written ++ after := by
  obtain ⟨ps, qs, hpieces⟩ := List.append_of_mem h
  refine ⟨ps.flatMap Piece.written, qs.flatMap Piece.written, ?_⟩
  calc text = (pieces text).flatMap Piece.written := (flatMap_written_pieces text).symm
    _ = ps.flatMap Piece.written ++ p.written ++ qs.flatMap Piece.written := by
      rw [hpieces, List.flatMap_append, List.flatMap_cons, List.append_assoc]

end Devcontainer.Template
