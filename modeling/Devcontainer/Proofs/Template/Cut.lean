import Devcontainer.Proofs.Template.Expand

/-!
# Expanding a template in parts

A comma is part of no name of the workspace and of no opening. So a template may be cut at its commas
before it is expanded, unless a reference that is left open in front of the comma is closed behind
it: such a reference reads over the comma.
-/

namespace Devcontainer.Template

open Text

def LeavesOpen (text : List Char) : Prop :=
  ∃ before behind, text = before ++ opening ++ behind ∧ '\x7d' ∉ behind

theorem LeavesOpen.append_left {text : List Char} (h : LeavesOpen text) (head : List Char) :
    LeavesOpen (head ++ text) := by
  obtain ⟨before, behind, rfl, hbehind⟩ := h
  exact ⟨head ++ before, behind, by simp only [List.append_assoc], hbehind⟩

theorem LeavesOpen.of_append {head text : List Char} (hhead : '$' ∉ head)
    (h : LeavesOpen (head ++ text)) : LeavesOpen text := by
  obtain ⟨before, behind, htext, hbehind⟩ := h
  rw [List.append_assoc] at htext
  rcases List.append_eq_append_iff.1 htext with ⟨more, -, hmore⟩ | ⟨more, hsplit, hmore⟩
  · exact ⟨more, behind, by rw [hmore, List.append_assoc], hbehind⟩
  · cases more with
    | nil => exact ⟨[], behind, hmore.symm, hbehind⟩
    | cons c more =>
        obtain ⟨body, hopening, -⟩ := opening_eq_cons
        rw [hopening] at hmore
        obtain ⟨rfl, -⟩ := List.cons.inj hmore
        exact absurd (by rw [hsplit]; simp) hhead

/-! ## Names of the workspace -/

theorem Form.comma_not_mem_written (f : Form) : ',' ∉ f.written := by
  have hall : ∀ g ∈ Form.all, ',' ∉ g.written := by decide
  exact hall f f.mem_all

theorem replaceTokens_append_comma (c : Context) (text rest : List Char) :
    replaceTokens (tokens c) (text ++ ',' :: rest) =
      replaceTokens (tokens c) text ++ ',' :: replaceTokens (tokens c) rest := by
  rw [tokens_eq]
  generalize Form.all = fs
  induction fs generalizing text rest with
  | nil => rfl
  | cons f fs ih =>
      rw [replaceTokens_cons, replaceTokens_cons, replaceTokens_cons,
        replaceAll_append_cons f.written_ne_nil f.comma_not_mem_written, ih]

/-! ## References -/

/-- A text that has no reference at its head gets none by what is put behind a comma, unless a
reference is closed there. -/
theorem referenceAt_append_comma {text rest : List Char} (hnone : referenceAt text = none)
    (h : LeavesOpen text → '\x7d' ∉ rest) :
    referenceAt (text ++ ',' :: rest) = none := by
  by_contra hsome
  have hread : (referenceAt (text ++ ',' :: rest)).isSome := Option.isSome_iff_ne_none.2 hsome
  have hopening : opening <+: text := by
    obtain ⟨⟨r, width⟩, hr⟩ := Option.isSome_iff_exists.1 hread
    have hprefix := (wellFormed_of_referenceAt hr).2.2
    rw [r.written_eq] at hprefix
    exact prefix_of_prefix_append_cons (by decide) ((List.prefix_append _ _).trans hprefix)
  obtain ⟨behind, rfl⟩ := hopening
  rw [List.append_assoc] at hread
  obtain ⟨c, after, hafter, hbrace, hcolon, hclosed⟩ := isSome_referenceAt_opening_append.1 hread
  by_cases hmem : '\x7d' ∈ behind
  · -- the reference would be closed in the text itself
    cases behind with
    | nil => cases hmem
    | cons c' behind =>
        obtain ⟨rfl, -⟩ := List.cons.inj hafter
        have hin : '\x7d' ∈ behind := (List.mem_cons.1 hmem).resolve_left (Ne.symm hbrace)
        have htext := isSome_referenceAt_opening_append.2 ⟨c', behind, rfl, hbrace, hcolon, hin⟩
        rw [hnone] at htext
        cases htext
  · have hrest : '\x7d' ∉ rest := h ⟨[], behind, rfl, hmem⟩
    have hall : '\x7d' ∈ behind ++ ',' :: rest := hafter ▸ List.mem_cons_of_mem c hclosed
    simp [hmem, hrest] at hall

theorem pieces_append_comma {text rest : List Char} (h : LeavesOpen text → '\x7d' ∉ rest) :
    pieces (text ++ ',' :: rest) = pieces text ++ .char ',' :: pieces rest := by
  induction hn : text.length using Nat.strongRecOn generalizing text with
  | ind n ih =>
      cases text with
      | nil =>
          have hcomma : '$' ∉ [','] := by decide
          exact pieces_append_of_not_mem hcomma rest
      | cons c text =>
          cases hread : referenceAt (c :: text) with
          | none =>
              have hlt : text.length < n := by
                rw [List.length_cons] at hn
                omega
              have hafter : LeavesOpen text → '\x7d' ∉ rest := fun hopen =>
                h (hopen.append_left [c])
              have hnone := referenceAt_append_comma hread h
              rw [List.cons_append] at hnone ⊢
              rw [pieces_cons_of_isNone hnone, pieces_cons_of_isNone hread,
                ih text.length hlt hafter rfl, List.cons_append]
          | some found =>
              obtain ⟨r, width⟩ := found
              obtain ⟨hwell, -, behind, hbehind⟩ := wellFormed_of_referenceAt hread
              have hlt : behind.length < n := by
                have hpos := List.length_pos_iff.2 r.written_ne_nil
                have hsum := congrArg List.length hbehind
                rw [List.length_append] at hsum
                omega
              rw [← hbehind] at h ⊢
              have hafter : LeavesOpen behind → '\x7d' ∉ rest := fun hopen =>
                h (hopen.append_left r.written)
              rw [List.append_assoc, pieces_written_append hwell, pieces_written_append hwell,
                ih behind.length hlt hafter rfl, List.cons_append]

/-! ## Expansions -/

/-- A reference that is left open in the first text and closed in the second one, once the names of
the workspace have been replaced in both. -/
def Entangled (c : Context) (first second : String) : Prop :=
  LeavesOpen (replaceTokens (tokens c) first.toList) ∧
    '\x7d' ∈ replaceTokens (tokens c) second.toList

theorem expand_append_comma {c : Context} {first second : String}
    (h : ¬ Entangled c first second) : (expand c (first ++ "," ++ second)).text =
      (expand c first).text ++ "," ++ (expand c second).text := by
  have htext : (first ++ "," ++ second).toList = first.toList ++ ',' :: second.toList := by
    simp [String.toList_append]
  have hpieces : piecesOf c (first ++ "," ++ second) =
      piecesOf c first ++ .char ',' :: piecesOf c second := by
    unfold piecesOf
    rw [htext, replaceTokens_append_comma]
    exact pieces_append_comma fun hopen hbrace => h ⟨hopen, hbrace⟩
  apply String.toList_injective
  rw [toList_text_expand, hpieces, textOf_append, textOf_cons]
  simp [String.toList_append, toList_text_expand, Piece.text]

/-! ## Parts with commas between them -/

theorem replaceTokens_plain_append {c : Context} {head : String} (h : '$' ∉ head.toList)
    (text : String) : replaceTokens (tokens c) (head ++ text).toList =
      head.toList ++ replaceTokens (tokens c) text.toList := by
  rw [String.toList_append, tokens_eq, replaceTokens_append_of_not_mem Form.all h]

theorem replaceTokens_of_not_mem {c : Context} {text : String} (h : '$' ∉ text.toList) :
    replaceTokens (tokens c) text.toList = text.toList := by
  have hparts := replaceTokens_plain_append (c := c) h ""
  rw [String.append_empty, String.toList_empty, tokens_eq, replaceTokens_nil,
    List.append_nil] at hparts
  rwa [tokens_eq]

theorem expand_plain_append {c : Context} {head : String} (h : '$' ∉ head.toList)
    (text : String) : (expand c (head ++ text)).text = head ++ (expand c text).text := by
  apply String.toList_injective
  have hexpand := expand_append_of_not_mem (c := c) h text.toList
  rwa [← String.toList_append, String.ofList_toList, String.ofList_toList,
    ← String.toList_append] at hexpand

theorem entangled_append_comma {c : Context} {first second third : String} :
    Entangled c first (second ++ "," ++ third) ↔
      Entangled c first second ∨ Entangled c first third := by
  have htext : (second ++ "," ++ third).toList = second.toList ++ ',' :: third.toList := by
    simp [String.toList_append]
  unfold Entangled
  rw [htext, replaceTokens_append_comma]
  simp [and_or_left]

theorem not_entangled_of_not_mem {c : Context} {first second : String}
    (h : '$' ∉ first.toList) : ¬ Entangled c first second := by
  rintro ⟨⟨before, behind, htext, -⟩, -⟩
  rw [replaceTokens_of_not_mem h] at htext
  obtain ⟨body, hopening, -⟩ := opening_eq_cons
  apply h
  rw [htext, hopening]
  simp

theorem Entangled.of_append {c : Context} {head head' first second : String}
    (hhead : '$' ∉ head.toList) (hhead' : '$' ∉ head'.toList) (hbrace : '\x7d' ∉ head'.toList)
    (h : Entangled c (head ++ first) (head' ++ second)) : Entangled c first second := by
  obtain ⟨hopen, hmem⟩ := h
  rw [replaceTokens_plain_append hhead] at hopen
  rw [replaceTokens_plain_append hhead'] at hmem
  exact ⟨hopen.of_append hhead, (List.mem_append.1 hmem).resolve_left hbrace⟩

theorem not_entangled_intercalate {c : Context} {first : String} {parts : List String}
    (hne : parts ≠ []) (h : ∀ part ∈ parts, ¬ Entangled c first part) :
    ¬ Entangled c first (String.intercalate "," parts) := by
  induction parts with
  | nil => exact absurd rfl hne
  | cons part parts ih =>
      cases parts with
      | nil =>
          rw [String.intercalate_singleton]
          exact h part (List.mem_singleton_self part)
      | cons part' parts =>
          rw [String.intercalate_cons_cons, entangled_append_comma, not_or]
          exact ⟨h part (List.mem_cons_self ..), ih (List.cons_ne_nil _ _) fun p hp =>
            h p (List.mem_cons_of_mem part hp)⟩

/-- Parts with commas between them may be expanded one by one when none is entangled with a later
one. -/
theorem expand_intercalate {c : Context} {parts : List String}
    (h : parts.Pairwise fun first second => ¬ Entangled c first second) :
    (expand c (String.intercalate "," parts)).text =
      String.intercalate "," (parts.map fun part => (expand c part).text) := by
  induction parts with
  | nil => exact expand_of_not_mem (by decide)
  | cons part parts ih =>
      obtain ⟨hpart, hparts⟩ := List.pairwise_cons.1 h
      cases parts with
      | nil => rw [List.map_singleton, String.intercalate_singleton, String.intercalate_singleton]
      | cons part' parts =>
          have hlater := not_entangled_intercalate (List.cons_ne_nil part' parts) hpart
          rw [String.intercalate_cons_cons, expand_append_comma hlater, ih hparts]
          simp only [List.map_cons, String.intercalate_cons_cons]

end Devcontainer.Template
