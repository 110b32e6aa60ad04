import Devcontainer.Text.Basic

/-!
# Scans and replacements, piece by piece

What a scan answers for a text follows from what it reads at the head and from the text behind it.
All laws here split off a head that is known.
-/

namespace Devcontainer.Text

variable {α β : Type}

/-! ## Scans -/

theorem scan_append_of_next {next : List α → β × Nat} {head rest : List α} {piece : β}
    (hne : head ≠ []) (h : next (head ++ rest) = (piece, head.length)) :
    scan next (head ++ rest) = piece :: scan next rest := by
  cases head with
  | nil => exact absurd rfl hne
  | cons c head =>
      rw [List.cons_append] at h ⊢
      rw [scan_cons, h]
      have hdrop : (head ++ rest).drop ((c :: head).length - 1) = rest := by
        rw [List.length_cons, Nat.add_sub_cancel]
        exact List.drop_left
      rw [hdrop]

theorem scan_append_of_forall {next : List α → β × Nat} {read : α → β} {head : List α}
    (h : ∀ c ∈ head, ∀ rest, next (c :: rest) = (read c, 1)) (rest : List α) :
    scan next (head ++ rest) = head.map read ++ scan next rest := by
  induction head with
  | nil => rfl
  | cons c head ih =>
      have hhead : ∀ c ∈ head, ∀ rest, next (c :: rest) = (read c, 1) := fun c' hc' =>
        h c' (List.mem_cons_of_mem _ hc')
      have hc : scan next ([c] ++ (head ++ rest)) = read c :: scan next (head ++ rest) :=
        scan_append_of_next (List.cons_ne_nil _ _) (h c (List.mem_cons_self ..) _)
      rw [List.singleton_append] at hc
      rw [List.cons_append, hc, ih hhead]
      rfl

/-- A scan whose pieces keep what they cover gives the text back. -/
theorem flatMap_scan {next : List α → β × Nat} {written : β → List α}
    (h : ∀ text, text ≠ [] →
      ∃ rest, text = written (next text).1 ++ rest ∧
        (written (next text).1).length = (next text).2 ∧ 0 < (next text).2)
    (text : List α) : (scan next text).flatMap written = text := by
  -- the text behind a piece is shorter, but need not be the tail
  induction hn : text.length using Nat.strongRecOn generalizing text with
  | ind n ih =>
      cases text with
      | nil => rfl
      | cons c text =>
          obtain ⟨rest, htext, hlength, hpos⟩ := h (c :: text) (List.cons_ne_nil _ _)
          have hne : written (next (c :: text)).1 ≠ [] := by
            intro hnil
            rw [hnil, List.length_nil] at hlength
            omega
          have hlt : rest.length < n := by
            have hsum := congrArg List.length htext
            rw [List.length_append] at hsum
            omega
          have hscan : scan next (c :: text) = (next (c :: text)).1 :: scan next rest := by
            have hnext : scan next (written (next (c :: text)).1 ++ rest) =
                (next (c :: text)).1 :: scan next rest :=
              scan_append_of_next hne (by rw [← htext, hlength])
            rwa [← htext] at hnext
          rw [hscan, List.flatMap_cons, ih rest.length hlt rest rfl, ← htext]

theorem exists_suffix_of_mem_scanFrom {next : List α → β × Nat} {skip : Nat} {text : List α}
    {piece : β} (h : piece ∈ scanFrom next skip text) :
    ∃ rest, rest <:+ text ∧ rest ≠ [] ∧ (next rest).1 = piece := by
  induction text generalizing skip with
  | nil => cases skip <;> cases h
  | cons c text ih =>
      have hlater : ∀ {skip}, piece ∈ scanFrom next skip text →
          ∃ rest, rest <:+ c :: text ∧ rest ≠ [] ∧ (next rest).1 = piece := by
        intro skip h
        obtain ⟨rest, hsuffix, hrest⟩ := ih h
        exact ⟨rest, hsuffix.trans (List.suffix_cons c text), hrest⟩
      cases skip with
      | succ skip => exact hlater h
      | zero =>
          rcases List.mem_cons.1 h with rfl | h
          · exact ⟨c :: text, List.suffix_rfl, List.cons_ne_nil _ _, rfl⟩
          · exact hlater h

/-! ## Replacements -/

theorem occurs_iff {token text : List Char} : occurs token text = true ↔ token <:+: text := by
  induction text with
  | nil => rw [occurs, List.isEmpty_iff, List.infix_nil]
  | cons c rest ih =>
      rw [occurs, Bool.or_eq_true, ih, List.isPrefixOf_iff_prefix, List.infix_cons_iff]

theorem replaceAll_eq_scan {token : List Char} (value text : List Char) (h : token ≠ []) :
    replaceAll token value text = (scan (replaceHead token value) text).flatten := by
  cases token with
  | nil => exact absurd rfl h
  | cons => rfl

theorem replaceAll_token_append {token : List Char} (value rest : List Char) (h : token ≠ []) :
    replaceAll token value (token ++ rest) = value ++ replaceAll token value rest := by
  have hhead : replaceHead token value (token ++ rest) = (value, token.length) := by
    unfold replaceHead
    rw [if_pos (List.isPrefixOf_iff_prefix.2 (List.prefix_append _ _))]
  rw [replaceAll_eq_scan _ _ h, replaceAll_eq_scan _ _ h, scan_append_of_next h hhead,
    List.flatten_cons]

theorem replaceAll_cons_of_not_head {token : List Char} (value : List Char) {c : Char}
    {rest : List Char} (hne : token ≠ []) (h : ¬ token <+: c :: rest) :
    replaceAll token value (c :: rest) = c :: replaceAll token value rest := by
  have hhead : replaceHead token value ([c] ++ rest) = ([c], 1) := by
    have hp : token.isPrefixOf (c :: rest) ≠ true := fun hp => h (List.isPrefixOf_iff_prefix.1 hp)
    exact if_neg hp
  have hscan := scan_append_of_next (List.cons_ne_nil c []) hhead
  rw [List.singleton_append] at hscan
  rw [replaceAll_eq_scan _ _ hne, replaceAll_eq_scan _ _ hne, hscan]
  rfl

theorem replaceAll_append_of_not_mem {a : Char} {token head : List Char} (value rest : List Char)
    (h : a ∉ head) :
    replaceAll (a :: token) value (head ++ rest) = head ++ replaceAll (a :: token) value rest := by
  induction head with
  | nil => rfl
  | cons c head ih =>
      have hc : ¬ a :: token <+: c :: (head ++ rest) := by
        intro hp
        exact h (List.mem_cons.2 (Or.inl (List.cons_prefix_cons.1 hp).1))
      rw [List.cons_append, replaceAll_cons_of_not_head _ (List.cons_ne_nil _ _) hc,
        ih fun hmem => h (List.mem_cons_of_mem _ hmem)]
      rfl

theorem not_prefix_append {token head : List Char} (rest : List Char) (h : ¬ token <+: head)
    (h' : ¬ head <+: token) : ¬ token <+: head ++ rest := by
  intro hp
  rcases List.prefix_or_prefix_of_prefix hp (List.prefix_append head rest) with hp | hp
  · exact h hp
  · exact h' hp

/-! ## Characters that a token does not have -/

theorem prefix_of_prefix_append_cons {token head rest : List Char} {x : Char} (hx : x ∉ token)
    (h : token <+: head ++ x :: rest) : token <+: head := by
  rcases List.prefix_or_prefix_of_prefix h (List.prefix_append head _) with hp | ⟨more, rfl⟩
  · exact hp
  · cases more with
    | nil => exact ⟨[], by rw [List.append_nil, List.append_nil]⟩
    | cons y more =>
        obtain ⟨rfl, -⟩ := List.cons_prefix_cons.1 ((List.prefix_append_right_inj head).1 h)
        exact absurd (List.mem_append_right head (List.mem_cons_self ..)) hx

/-- Where no occurrence reaches over from one text into another, each is replaced for itself. -/
theorem replaceAll_append {token : List Char} (hne : token ≠ []) (value : List Char)
    {text rest : List Char}
    (h : ∀ tail, tail <:+ text → tail ≠ [] → token <+: tail ++ rest → token <+: tail) :
    replaceAll token value (text ++ rest) =
      replaceAll token value text ++ replaceAll token value rest := by
  -- an occurrence covers several characters, so the induction is on the length
  induction hn : text.length using Nat.strongRecOn generalizing text with
  | ind n ih =>
      by_cases hp : token <+: text
      · obtain ⟨behind, rfl⟩ := hp
        have hlt : behind.length < n := by
          have hpos := List.length_pos_iff.2 hne
          rw [List.length_append] at hn
          omega
        have hbehind := ih behind.length hlt
          (fun tail htail => h tail (htail.trans (List.suffix_append _ _))) rfl
        rw [List.append_assoc, replaceAll_token_append _ _ hne, replaceAll_token_append _ _ hne,
          hbehind, List.append_assoc]
      · cases text with
        | nil => rw [List.nil_append, replaceAll_nil _ hne, List.nil_append]
        | cons c text =>
            have hlt : text.length < n := by
              rw [List.length_cons] at hn
              omega
            have hhead : ¬ token <+: c :: text ++ rest := fun hover =>
              hp (h (c :: text) List.suffix_rfl (List.cons_ne_nil _ _) hover)
            have htext := ih text.length hlt
              (fun tail htail => h tail (htail.trans (List.suffix_cons c text))) rfl
            rw [List.cons_append] at hhead ⊢
            rw [replaceAll_cons_of_not_head _ hne hhead, replaceAll_cons_of_not_head _ hne hp,
              htext, List.cons_append]

theorem replaceAll_append_cons {token : List Char} (hne : token ≠ []) {x : Char} (hx : x ∉ token)
    (value text rest : List Char) : replaceAll token value (text ++ x :: rest) =
      replaceAll token value text ++ x :: replaceAll token value rest := by
  have hstop : ¬ token <+: x :: rest := by
    intro hp
    have hnil : token <+: [] := prefix_of_prefix_append_cons hx hp
    exact hne (List.prefix_nil.1 hnil)
  rw [replaceAll_append hne value fun tail _ _ hover => prefix_of_prefix_append_cons hx hover,
    replaceAll_cons_of_not_head value hne hstop]

/-- An occurrence can begin at the first character of the token, but not reach over it. -/
theorem replaceAll_append_first {a : Char} {token : List Char} (ha : a ∉ token)
    (value text rest : List Char) : replaceAll (a :: token) value (text ++ a :: rest) =
      replaceAll (a :: token) value text ++ replaceAll (a :: token) value (a :: rest) := by
  refine replaceAll_append (List.cons_ne_nil a token) value fun tail _ htail hover => ?_
  obtain ⟨b, tail, rfl⟩ := List.exists_cons_of_ne_nil htail
  obtain ⟨rfl, hbody⟩ := List.cons_prefix_cons.1 hover
  exact List.cons_prefix_cons.2 ⟨rfl, prefix_of_prefix_append_cons ha hbody⟩

theorem mem_replaceAll {token : List Char} (hne : token ≠ []) {value text : List Char} {x : Char}
    (h : x ∈ replaceAll token value text) : x ∈ text ∨ x ∈ value := by
  rw [replaceAll_eq_scan _ _ hne] at h
  obtain ⟨piece, hpiece, hx⟩ := List.mem_flatten.1 h
  obtain ⟨rest, hsuffix, -, rfl⟩ := exists_suffix_of_mem_scanFrom hpiece
  unfold replaceHead at hx
  split at hx
  · exact Or.inr hx
  · exact Or.inl (hsuffix.subset (List.mem_of_mem_take hx))

end Devcontainer.Text
