import Devcontainer.Proofs.Document.Quoted
import Devcontainer.Proofs.Json.Legible

/-!
# Printed values are read back

The lines of a printed value are cut into the tokens of the value, and these tokens build the value
again. Only strings can stand in the way: a separator in one of them makes the whole text unreadable.
-/

namespace Devcontainer

namespace Json

mutual

def texts : Json → List String
  | .string s => [s]
  | .array items => textsOfItems items
  | .object members => textsOfMembers members
  | .null | .bool _ | .number _ => []

def textsOfItems : List Json → List String
  | [] => []
  | item :: items => item.texts ++ textsOfItems items

def textsOfMembers : List (String × Json) → List String
  | [] => []
  | (key, value) :: members => key :: value.texts ++ textsOfMembers members

end

end Json

namespace Document

open Json

/-! ## Cutting -/

mutual

def tokensOf : Json → List Token
  | .null => [.name "null" true]
  | .bool true => [.name "true" true]
  | .bool false => [.name "false" true]
  | .number n => [.numeral (.number n)]
  | .string s => [.text s]
  | .array items => .bracketOpen :: (tokensOfItems items ++ [.bracketClose])
  | .object members => .braceOpen :: (tokensOfMembers members ++ [.braceClose])

def tokensOfItems : List Json → List Token
  | [] => []
  | [item] => tokensOf item
  | item :: items => tokensOf item ++ .comma :: tokensOfItems items

def tokensOfMembers : List (String × Json) → List Token
  | [] => []
  | [(key, value)] => .text key :: .colon :: tokensOf value
  | (key, value) :: members =>
    .text key :: .colon :: (tokensOf value ++ .comma :: tokensOfMembers members)

end

def hasSeparator (texts : List String) : Bool :=
  texts.any (·.toList.any isSeparator)

/-- The tokens of a text with the strings `texts` in it, before those of what follows. -/
def emit (texts : List String) (ts : List Token) (rest : Option (List Token)) :
    Option (List Token) :=
  if hasSeparator texts then none else rest.map (ts ++ ·)

theorem emit_emit (texts texts' : List String) (ts ts' : List Token)
    (rest : Option (List Token)) :
    emit texts ts (emit texts' ts' rest) = emit (texts ++ texts') (ts ++ ts') rest := by
  unfold emit hasSeparator
  rw [List.any_append]
  cases texts.any (·.toList.any isSeparator) with
  | true => rfl
  | false =>
      cases texts'.any (·.toList.any isSeparator) with
      | true => rfl
      | false => cases rest <;> simp

theorem lex_append_token {head rest : List Char} {t : Token} (hne : head ≠ [])
    (h : lexemeAt (head ++ rest) = (.token t, head.length)) :
    lex (head ++ rest) = emit [] [t] (lex rest) := by
  rw [lex, Text.scan_append_of_next hne h]
  rfl

theorem lex_mark {c : Char} {t : Token} {rest : List Char}
    (h : lexemeAt (c :: rest) = (.token t, 1)) : lex (c :: rest) = emit [] [t] (lex rest) :=
  lex_append_token (List.cons_ne_nil c []) h

theorem lex_blank {c : Char} {rest : List Char} (h : lexemeAt (c :: rest) = (.blank, 1)) :
    lex (c :: rest) = lex rest := by
  have hscan := Text.scan_append_of_next (List.cons_ne_nil c []) h
  rw [List.singleton_append] at hscan
  rw [lex, hscan]
  rfl

theorem lex_newLine (depth : Nat) (rest : List Char) :
    lex (newLine depth ++ rest) = lex rest := by
  have hblanks : ∀ n, lex (List.replicate n ' ' ++ rest) = lex rest := by
    intro n
    induction n with
    | zero => rfl
    | succ n ih =>
        rw [List.replicate_succ, List.cons_append, lex_blank rfl, ih]
  rw [newLine, List.cons_append, lex_blank rfl, hblanks]

theorem lex_quote (s : String) (rest : List Char) :
    lex (quote s ++ rest) = emit [s] [.text s] (lex rest) := by
  have hlexeme := lexemeAt_quote s rest
  have hhas : hasSeparator [s] = s.toList.any isSeparator := Bool.or_false _
  rw [emit, hhas]
  cases hseparator : s.toList.any isSeparator with
  | false =>
      rw [hseparator, if_neg Bool.false_ne_true] at hlexeme
      exact lex_append_token (List.cons_ne_nil _ _) hlexeme
  | true =>
      rw [hseparator, if_pos rfl] at hlexeme
      rw [if_pos rfl, quote, List.cons_append, lex, Text.scan_cons]
      rw [quote, List.cons_append] at hlexeme
      rw [hlexeme]
      rfl

theorem lexemeAt_of_isDigit {c : Char} (hc : Text.isDigit c = true) (rest : List Char) :
    lexemeAt (c :: rest) = numberLexeme (c :: rest) := by
  have hne : ∀ d, Text.isDigit d = false → c ≠ d := by
    rintro d hd rfl
    rw [hc] at hd
    cases hd
  have hspace : isSpace c = false := by
    have hrange : 48 ≤ c.toNat ∧ c.toNat ≤ 57 := by
      simpa [Text.isDigit, Char.le_def, UInt32.le_iff_toNat_le] using hc
    simp only [isSpace, isLineEnd, beq_false_of_ne (hne '\n' rfl), beq_false_of_ne (hne '\r' rfl),
      Bool.or_eq_false_iff, Bool.and_eq_false_iff, beq_eq_false_iff_ne, decide_eq_false_iff_not,
      true_and]
    omega
  unfold lexemeAt
  split
  next h => cases h
  next c' rest' h =>
    obtain ⟨rfl, rfl⟩ := List.cons.inj h
    split
    iterate 9 next => cases hc
    next => simp [hspace, hc]

theorem lex_writeNumber {n : Number} (hn : n.Readable) {rest : List Char} (hrest : Breaks rest) :
    lex (writeNumber n ++ rest) = emit [] [.numeral (.number n)] (lex rest) := by
  obtain ⟨negative, ds, tail, hds, htext⟩ := exists_whole_writeNumber hn
  obtain ⟨d, ds, rfl⟩ := List.exists_cons_of_ne_nil hds.ne_nil
  have hlexeme : lexemeAt (writeNumber n ++ rest) = numberLexeme (writeNumber n ++ rest) := by
    rw [htext]
    cases negative with
    | true => rfl
    | false => exact lexemeAt_of_isDigit (hds.digits d (List.mem_cons_self ..)) _
  have hne : writeNumber n ≠ [] := by
    rw [htext]
    simp
  refine lex_append_token hne ?_
  rw [hlexeme, numberLexeme, numberAt_writeNumber hn hrest]

theorem nameFrom_of_breaks {rest : List Char} (hrest : Breaks rest) :
    nameFrom false 0 rest = ([], 0) := by
  cases rest with
  | nil => rfl
  | cons c rest =>
      rcases hrest c rfl with rfl | rfl <;> rfl

theorem nameFrom_append {cs rest : List Char} (hcs : ∀ c ∈ cs, Text.isLetter c = true)
    (hrest : Breaks rest) (start : Bool) (hne : start = true → cs ≠ []) :
    nameFrom start 0 (cs ++ rest) = (cs.map .char, cs.length) := by
  induction cs generalizing start with
  | nil =>
      cases start with
      | true => exact absurd rfl (hne rfl)
      | false => exact nameFrom_of_breaks hrest
  | cons c cs ih =>
      obtain ⟨hc, hcs⟩ := List.forall_mem_cons.1 hcs
      have hhead : nameHead start (c :: (cs ++ rest)) = some (.char c, 1) := by
        unfold nameHead
        split
        next h => cases h
        next h =>
          obtain rfl := (List.cons.inj h).1
          cases hc
        next h =>
          obtain rfl := (List.cons.inj h).1
          simp [hc]
      rw [List.cons_append, nameFrom, hhead]
      simp only [Nat.sub_self, ih hcs false nofun]
      rfl

theorem lexemeAt_name {s : String} (hs : s ∈ ["null", "true", "false"]) {rest : List Char}
    (hrest : Breaks rest) :
    lexemeAt (s.toList ++ rest) = (.token (.name s true), s.toList.length) := by
  have hslash : s.toList.contains '\\' = false := by decide +revert
  have hletters : s.toList.all Text.isLetter = true := by decide +revert
  have hne : s.toList ≠ [] := by decide +revert
  have hname : lexemeAt (s.toList ++ rest) = nameAt (s.toList ++ rest) := by
    simp only [List.mem_cons, List.not_mem_nil, or_false] at hs
    rcases hs with rfl | rfl | rfl <;> rfl
  have hjoin : ∀ cs : List Char, joinPieces (cs.map .char) = some cs := by
    intro cs
    induction cs with
    | nil => rfl
    | cons c cs ih => rw [List.map_cons, joinPieces, ih]; rfl
  obtain ⟨piece, pieces, hpieces⟩ : ∃ piece pieces, s.toList.map Piece.char = piece :: pieces :=
    List.exists_cons_of_ne_nil (by simpa using hne)
  have hread := hjoin s.toList
  rw [hpieces] at hread
  rw [hname, nameAt, nameFrom_append (List.all_eq_true.1 hletters) hrest true fun _ => hne, hpieces]
  simp only [hread, List.take_left, hslash, String.ofList_toList, Bool.not_false]

theorem lex_name {s : String} (hs : s ∈ ["null", "true", "false"]) {rest : List Char}
    (hrest : Breaks rest) : lex (s.toList ++ rest) = emit [] [.name s true] (lex rest) := by
  refine lex_append_token ?_ (lexemeAt_name hs hrest)
  simp only [List.mem_cons, List.not_mem_nil, or_false] at hs
  rcases hs with rfl | rfl | rfl <;> decide

theorem breaks_newLine (depth : Nat) (rest : List Char) : Breaks (newLine depth ++ rest) :=
  fun _ hc => .inr (Option.some.inj hc).symm

theorem breaks_comma (rest : List Char) : Breaks (',' :: rest) :=
  fun _ hc => .inl (Option.some.inj hc).symm

mutual

theorem lex_writeIndented : (v : Json) → (∀ n ∈ v.numbers, n.Readable) → (depth : Nat) →
    {rest : List Char} → Breaks rest →
    lex (v.writeIndented depth ++ rest) = emit v.texts (tokensOf v) (lex rest)
  | .null, _, _, _, hrest => lex_name (List.mem_cons_self ..) hrest
  | .bool true, _, _, _, hrest => lex_name (by decide) hrest
  | .bool false, _, _, _, hrest => lex_name (by decide) hrest
  | .number n, h, _, _, hrest => lex_writeNumber (h n (List.mem_singleton_self n)) hrest
  | .string s, _, _, rest, _ => lex_quote s rest
  | .array [], _, _, rest, _ => by
      show lex ('[' :: ']' :: rest) = _
      rw [lex_mark rfl, lex_mark rfl, emit_emit]
      rfl
  | .array (item :: items), h, depth, rest, _ => by
      have htext : (Json.array (item :: items)).writeIndented depth ++ rest =
          '[' :: (writeItemLines (depth + 1) (item :: items) ++ (newLine depth ++ ']' :: rest)) := by
        simp [writeIndented]
      rw [htext, lex_mark rfl, lex_writeItemLines (item :: items) (List.cons_ne_nil _ _) h _
          (breaks_newLine depth _),
        lex_newLine, lex_mark rfl, emit_emit, emit_emit, List.append_nil]
      rfl
  | .object [], _, _, rest, _ => by
      show lex ('\x7b' :: '\x7d' :: rest) = _
      rw [lex_mark rfl, lex_mark rfl, emit_emit]
      rfl
  | .object ((key, value) :: members), h, depth, rest, _ => by
      have htext : (Json.object ((key, value) :: members)).writeIndented depth ++ rest =
          '\x7b' :: (writeMemberLines (depth + 1) ((key, value) :: members) ++
            (newLine depth ++ '\x7d' :: rest)) := by
        simp [writeIndented]
      rw [htext, lex_mark rfl,
        lex_writeMemberLines ((key, value) :: members) (List.cons_ne_nil _ _) h _
          (breaks_newLine depth _),
        lex_newLine, lex_mark rfl, emit_emit, emit_emit, List.append_nil]
      rfl

theorem lex_writeItemLines : (items : List Json) → items ≠ [] →
    (∀ n ∈ numbersOfItems items, n.Readable) → (depth : Nat) → {rest : List Char} → Breaks rest →
    lex (writeItemLines depth items ++ rest) =
      emit (textsOfItems items) (tokensOfItems items) (lex rest)
  | [], hne, _, _, _, _ => absurd rfl hne
  | [item], _, h, depth, rest, hrest => by
      have hitem : ∀ n ∈ item.numbers, n.Readable := fun n hn => h n (List.mem_append_left _ hn)
      rw [writeItemLines, List.append_assoc, lex_newLine, lex_writeIndented item hitem depth hrest,
        textsOfItems, textsOfItems, List.append_nil]
      rfl
  | item :: next :: items, _, h, depth, rest, hrest => by
      have hitem : ∀ n ∈ item.numbers, n.Readable := fun n hn => h n (List.mem_append_left _ hn)
      have hitems : ∀ n ∈ numbersOfItems (next :: items), n.Readable := fun n hn =>
        h n (List.mem_append_right _ hn)
      have htext : writeItemLines depth (item :: next :: items) ++ rest = newLine depth ++
          (item.writeIndented depth ++ ',' :: (writeItemLines depth (next :: items) ++ rest)) := by
        simp [writeItemLines]
      rw [htext, lex_newLine, lex_writeIndented item hitem depth (breaks_comma _), lex_mark rfl,
        lex_writeItemLines (next :: items) (List.cons_ne_nil _ _) hitems depth hrest, emit_emit,
        emit_emit, List.append_nil, List.append_assoc]
      rfl

theorem lex_writeMemberLines : (members : List (String × Json)) → members ≠ [] →
    (∀ n ∈ numbersOfMembers members, n.Readable) → (depth : Nat) → {rest : List Char} →
    Breaks rest → lex (writeMemberLines depth members ++ rest) =
      emit (textsOfMembers members) (tokensOfMembers members) (lex rest)
  | [], hne, _, _, _, _ => absurd rfl hne
  | [(key, value)], _, h, depth, rest, hrest => by
      have hvalue : ∀ n ∈ value.numbers, n.Readable := fun n hn => h n (List.mem_append_left _ hn)
      have htext : writeMemberLines depth [(key, value)] ++ rest = newLine depth ++
          (quote key ++ ':' :: ' ' :: (value.writeIndented depth ++ rest)) := by
        simp [writeMemberLines]
      rw [htext, lex_newLine, lex_quote, lex_mark rfl, lex_blank rfl,
        lex_writeIndented value hvalue depth hrest, emit_emit, emit_emit, textsOfMembers,
        textsOfMembers, List.append_nil, List.append_nil]
      rfl
  | (key, value) :: next :: members, _, h, depth, rest, hrest => by
      have hvalue : ∀ n ∈ value.numbers, n.Readable := fun n hn => h n (List.mem_append_left _ hn)
      have hmembers : ∀ n ∈ numbersOfMembers (next :: members), n.Readable := fun n hn =>
        h n (List.mem_append_right _ hn)
      have htext : writeMemberLines depth ((key, value) :: next :: members) ++ rest =
          newLine depth ++ (quote key ++ ':' :: ' ' :: (value.writeIndented depth ++
            ',' :: (writeMemberLines depth (next :: members) ++ rest))) := by
        simp [writeMemberLines]
      rw [htext, lex_newLine, lex_quote, lex_mark rfl, lex_blank rfl,
        lex_writeIndented value hvalue depth (breaks_comma _), lex_mark rfl,
        lex_writeMemberLines (next :: members) (List.cons_ne_nil _ _) hmembers depth hrest,
        emit_emit, emit_emit, emit_emit, emit_emit, List.append_nil, List.append_nil,
        List.append_assoc, List.append_assoc, List.append_assoc]
      rfl

end

/-! ## Building -/

def Starts (s : State) (outer : List Frame) : Prop :=
  ∀ t, t ≠ .bracketClose → s.step t = startValue outer t

theorem starts_value (outer : List Frame) : Starts (.value outer) outer := fun _ _ => rfl

theorem starts_item (items : List Json) (outer : List Frame) :
    Starts (.item items outer) (.array items :: outer) := by
  intro t ht
  cases t with
  | bracketClose => exact absurd rfl ht
  | _ => rfl

theorem foldlM_step_scalar {s : State} {outer : List Frame} (hs : Starts s outer) {v : Json}
    (t : Token) (ht : t ≠ .bracketClose) (hv : startValue outer t = some (.afterValue v outer))
    (rest : List Token) :
    (t :: rest).foldlM State.step s = rest.foldlM State.step (.afterValue v outer) := by
  rw [List.foldlM_cons, hs t ht, hv]
  rfl

theorem put_of_nodup {done members : List (String × Json)} {key : String} {value : Json}
    (h : ((done ++ (key, value) :: members).map Prod.fst).Nodup) :
    Entries.put key value done = done ++ [(key, value)] := by
  apply Entries.put_of_not_mem
  rw [List.map_append, List.nodup_append] at h
  exact fun hmem => h.2.2 key hmem key (List.mem_cons_self ..) rfl

mutual

/-- The tokens of a value build it, wherever a value may start. -/
theorem foldlM_step_tokensOf : (v : Json) → v.DistinctKeys → {s : State} → {outer : List Frame} →
    Starts s outer → (rest : List Token) →
    (tokensOf v ++ rest).foldlM State.step s = rest.foldlM State.step (.afterValue v outer)
  | .null, _, _, _, hs, rest => foldlM_step_scalar hs (.name "null" true) nofun rfl rest
  | .bool true, _, _, _, hs, rest => foldlM_step_scalar hs (.name "true" true) nofun rfl rest
  | .bool false, _, _, _, hs, rest => foldlM_step_scalar hs (.name "false" true) nofun rfl rest
  | .number n, _, _, _, hs, rest => foldlM_step_scalar hs (.numeral (.number n)) nofun rfl rest
  | .string s, _, _, _, hs, rest => foldlM_step_scalar hs (.text s) nofun rfl rest
  | .array [], _, s, outer, hs, rest => by
      show (Token.bracketOpen :: .bracketClose :: rest).foldlM State.step s = _
      rw [List.foldlM_cons, hs .bracketOpen nofun]
      rfl
  | .array (item :: items), h, s, outer, hs, rest => by
      rw [tokensOf, List.cons_append, List.append_assoc, List.foldlM_cons, hs .bracketOpen nofun]
      exact foldlM_step_tokensOfItems (item :: items) (List.cons_ne_nil _ _) h [] outer rest
  | .object [], _, s, outer, hs, rest => by
      show (Token.braceOpen :: .braceClose :: rest).foldlM State.step s = _
      rw [List.foldlM_cons, hs .braceOpen nofun]
      rfl
  | .object (member :: members), h, s, outer, hs, rest => by
      rw [tokensOf, List.cons_append, List.append_assoc, List.foldlM_cons, hs .braceOpen nofun]
      exact foldlM_step_tokensOfMembers (member :: members) (List.cons_ne_nil _ _) [] h.1 h.2 outer
        rest

theorem foldlM_step_tokensOfItems : (items : List Json) → items ≠ [] → DistinctKeysItems items →
    (done : List Json) → (outer : List Frame) → (rest : List Token) →
    (tokensOfItems items ++ .bracketClose :: rest).foldlM State.step (.item done outer) =
      rest.foldlM State.step (.afterValue (.array (done ++ items)) outer)
  | [], hne, _, _, _, _ => absurd rfl hne
  | [item], _, h, done, outer, rest => by
      rw [tokensOfItems, foldlM_step_tokensOf item h.1 (starts_item done outer)]
      rfl
  | item :: next :: items, _, h, done, outer, rest => by
      have hrest := foldlM_step_tokensOfItems (next :: items) (List.cons_ne_nil _ _) h.2
        (done ++ [item]) outer rest
      rw [List.append_assoc] at hrest
      rw [tokensOfItems, List.append_assoc, foldlM_step_tokensOf item h.1 (starts_item done outer)]
      · exact hrest
      · nofun

theorem foldlM_step_tokensOfMembers : (members : List (String × Json)) → members ≠ [] →
    (done : List (String × Json)) → ((done ++ members).map Prod.fst).Nodup →
    DistinctKeysMembers members → (outer : List Frame) → (rest : List Token) →
    (tokensOfMembers members ++ .braceClose :: rest).foldlM State.step (.member done outer) =
      rest.foldlM State.step (.afterValue (.object (done ++ members)) outer)
  | [], hne, _, _, _, _, _ => absurd rfl hne
  | [(key, value)], _, done, hkeys, h, outer, rest => by
      rw [tokensOfMembers, ← put_of_nodup hkeys]
      exact foldlM_step_tokensOf value h.1 (starts_value (.object done key :: outer)) _
  | (key, value) :: next :: members, _, done, hkeys, h, outer, rest => by
      have hdone : done ++ (key, value) :: next :: members =
          Entries.put key value done ++ next :: members := by
        rw [put_of_nodup hkeys, List.append_assoc]
        rfl
      rw [hdone] at hkeys ⊢
      rw [← foldlM_step_tokensOfMembers (next :: members) (List.cons_ne_nil _ _) _ hkeys h.2 outer
        rest, tokensOfMembers]
      · have hvalue := foldlM_step_tokensOf value h.1 (starts_value (.object done key :: outer))
          (.comma :: (tokensOfMembers (next :: members) ++ .braceClose :: rest))
        rw [← List.cons_append, ← List.append_assoc] at hvalue
        exact hvalue
      · nofun

end

/-! ## Reading back -/

/-- A legible value in print is read as that value, with or without a line end behind it, unless one
of its strings has a separator in it. -/
theorem read?_indented {v : Json} (h : v.Legible) {tail : String} (htail : tail ∈ ["", "\n"]) :
    read? (v.indented ++ tail) = if hasSeparator v.texts then none else some v := by
  have hbreaks : Breaks tail.toList := by
    simp only [List.mem_cons, List.not_mem_nil, or_false] at htail
    rcases htail with rfl | rfl
    · nofun
    · intro c hc
      exact .inr (Option.some.inj hc).symm
  have hempty : lex tail.toList = some [] := by
    simp only [List.mem_cons, List.not_mem_nil, or_false] at htail
    rcases htail with rfl | rfl <;> rfl
  have htext : (v.indented ++ tail).toList = v.writeIndented 0 ++ tail.toList := by
    rw [String.toList_append, indented, String.toList_ofList]
  rw [read?, htext, lex_writeIndented v h.numbers 0 hbreaks, hempty, emit]
  split
  next => rfl
  next =>
    have hrun := foldlM_step_tokensOf v h.keys (starts_value []) []
    rw [Option.map_some, Option.bind_some, ofTokens?, hrun]
    rfl

end Document

end Devcontainer
