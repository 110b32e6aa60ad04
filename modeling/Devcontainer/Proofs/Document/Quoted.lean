import Devcontainer.Document.Lexer
import Devcontainer.Json.Printer

/-!
# Printed strings are read back

What is escaped in print is what the escape stands for, so a string in print is read as that string.
The two separators of lines and paragraphs are not escaped in print and not accepted in a document:
a string with one of them is not read at all.
-/

namespace Devcontainer.Document

open Json

/-- The line ends that stand in print as they are. -/
def isSeparator (c : Char) : Bool :=
  c.toNat == 0x2028 || c.toNat == 0x2029

/-! ## One character -/

theorem quotedFrom_append (quote : Char) (skipped rest : List Char) :
    quotedFrom quote skipped.length (skipped ++ rest) =
      (quotedFrom quote 0 rest).map fun (pieces, width) => (pieces, width + skipped.length) := by
  induction skipped with
  | nil =>
      show quotedFrom quote 0 rest = _
      cases quotedFrom quote 0 rest <;> rfl
  | cons c skipped ih =>
      rw [List.length_cons, List.cons_append, quotedFrom, ih]
      cases quotedFrom quote 0 rest <;> rfl

theorem quotedFrom_head {quote c : Char} {skipped : List Char} {head : List Piece}
    (hc : c ≠ quote) (rest : List Char)
    (hhead : quotedHead (c :: (skipped ++ rest)) = some (head, skipped.length + 1)) :
    quotedFrom quote 0 (c :: (skipped ++ rest)) =
      (quotedFrom quote 0 rest).map fun (pieces, width) =>
        (head ++ pieces, width + (skipped.length + 1)) := by
  rw [quotedFrom, if_neg hc, hhead]
  simp only [Nat.add_sub_cancel, quotedFrom_append]
  cases quotedFrom quote 0 rest <;> rfl

def isCoded (c : Char) : Bool :=
  c.toNat < 0x20 && !(['\x08', '\x0c', '\n', '\r', '\t'].contains c)

def pieceOf (c : Char) : Piece :=
  if isCoded c then .unit c.toNat else .char c

theorem hexValue?_hexDigit : ∀ n < 0x20,
    Text.hexValue? ['0', '0', hexDigit (n / 16), hexDigit n] = some n := by
  decide

theorem escapeAt_code {n : Nat} (hn : n < 0x20) (rest : List Char) :
    escapeAt ('u' :: '0' :: '0' :: hexDigit (n / 16) :: hexDigit n :: rest) =
      some ([.unit n], 5) := by
  have hlength : 4 ≤ ('0' :: '0' :: hexDigit (n / 16) :: hexDigit n :: rest).length := by
    simp
  rw [escapeAt, hexAt, if_pos hlength]
  simp only [List.take_succ_cons, List.take_zero, hexValue?_hexDigit n hn]
  rfl

theorem quotedFrom_mark {m c : Char} {rest : List Char}
    (h : escapeAt (m :: rest) = some ([.char c], 1)) :
    quotedFrom '"' 0 ('\\' :: m :: rest) =
      (quotedFrom '"' 0 rest).map fun (pieces, width) => (.char c :: pieces, width + 2) := by
  have hhead : quotedHead ('\\' :: ([m] ++ rest)) = some ([.char c], [m].length + 1) := by
    rw [quotedHead, List.singleton_append, h]
    rfl
  exact quotedFrom_head (by decide) rest hhead

theorem quotedFrom_code {n : Nat} (hn : n < 0x20) (rest : List Char) :
    quotedFrom '"' 0 (['\\', 'u', '0', '0', hexDigit (n / 16), hexDigit n] ++ rest) =
      (quotedFrom '"' 0 rest).map fun (pieces, width) => (.unit n :: pieces, width + 6) := by
  have hhead : quotedHead
      ('\\' :: (['u', '0', '0', hexDigit (n / 16), hexDigit n] ++ rest)) =
        some ([.unit n], 5 + 1) := by
    rw [quotedHead]
    exact congrArg (Option.map _) (escapeAt_code hn rest)
  exact quotedFrom_head (by decide) rest hhead

theorem quotedFrom_plain {c : Char} (hquote : c ≠ '"') (hslash : c ≠ '\\') (hn : c ≠ '\n')
    (hr : c ≠ '\r') (rest : List Char) :
    quotedFrom '"' 0 (c :: rest) =
      if isSeparator c then none
      else (quotedFrom '"' 0 rest).map fun (pieces, width) => (.char c :: pieces, width + 1) := by
  have hlineEnd : isLineEnd c = isSeparator c := by
    simp only [isLineEnd, isSeparator, beq_false_of_ne hn, beq_false_of_ne hr, Bool.false_or]
  have hhead : quotedHead (c :: rest) =
      if isSeparator c then none else some ([.char c], 1) := by
    unfold quotedHead
    split
    next heq => cases heq
    next heq => exact absurd (List.cons.inj heq).1 hslash
    next heq =>
      obtain rfl := (List.cons.inj heq).1
      rw [hlineEnd]
  cases hseparator : isSeparator c with
  | false =>
      rw [hseparator, ← List.nil_append rest] at hhead
      exact quotedFrom_head hquote rest hhead
  | true =>
      rw [hseparator] at hhead
      rw [quotedFrom, if_neg hquote, hhead]
      rfl

theorem quotedFrom_escape (c : Char) (rest : List Char) :
    quotedFrom '"' 0 (escape c ++ rest) =
      if isSeparator c then none
      else (quotedFrom '"' 0 rest).map fun (pieces, width) =>
        (pieceOf c :: pieces, width + (escape c).length) := by
  unfold escape
  split
  iterate 7 next => exact quotedFrom_mark rfl
  next hquote hslash hb hf hn hr ht =>
    split
    next hlow =>
      have hseparator : isSeparator c = false := by
        simp only [isSeparator, Bool.or_eq_false_iff, beq_eq_false_iff_ne]
        omega
      have hmark : c ∉ ['\x08', '\x0c', '\n', '\r', '\t'] := by
        simpa using ⟨hb, hf, hn, hr, ht⟩
      have hpiece : pieceOf c = .unit c.toNat := by
        rw [pieceOf, isCoded, if_pos]
        simpa [hlow] using hmark
      rw [hseparator, hpiece]
      exact quotedFrom_code hlow rest
    next hlow =>
      have hpiece : pieceOf c = .char c := by
        simp [pieceOf, isCoded, hlow]
      rw [hpiece]
      exact quotedFrom_plain hquote hslash hn hr rest

/-! ## Whole strings -/

theorem quotedFrom_flatMap_escape (cs rest : List Char) :
    quotedFrom '"' 0 (cs.flatMap escape ++ '"' :: rest) =
      if cs.any isSeparator then none
      else some (cs.map pieceOf, (cs.flatMap escape).length + 1) := by
  induction cs with
  | nil => rfl
  | cons c cs ih =>
      rw [List.flatMap_cons, List.append_assoc, quotedFrom_escape, ih, List.any_cons]
      cases isSeparator c with
      | true => rfl
      | false =>
          rw [Bool.false_or, if_neg Bool.false_ne_true]
          split
          · rfl
          · have hwidth : (cs.flatMap escape).length + 1 + (escape c).length =
                (escape c ++ cs.flatMap escape).length + 1 := by
              rw [List.length_append]
              omega
            rw [Option.map_some, ← hwidth]
            rfl

theorem joinPieces_map_pieceOf (cs : List Char) : joinPieces (cs.map pieceOf) = some cs := by
  induction cs with
  | nil => rfl
  | cons c cs ih =>
      rw [List.map_cons, pieceOf]
      split
      next hcoded =>
        have hlow : c.toNat < 0x20 := by
          simp only [isCoded, Bool.and_eq_true, decide_eq_true_eq] at hcoded
          exact hcoded.1
        have hhigh : isHighUnit c.toNat = false := by
          simp only [isHighUnit, Bool.and_eq_false_iff, decide_eq_false_iff_not]
          omega
        have hlow' : isLowUnit c.toNat = false := by
          simp only [isLowUnit, Bool.and_eq_false_iff, decide_eq_false_iff_not]
          omega
        unfold joinPieces
        rw [hlow', hhigh, ih, Char.ofNat_toNat]
        rfl
      next =>
        rw [joinPieces, ih]
        rfl

/-- A string in print is read as that string, unless a separator stands in it. -/
theorem lexemeAt_quote (s : String) (rest : List Char) :
    lexemeAt (quote s ++ rest) =
      if s.toList.any isSeparator then (.fault, 1) else (.token (.text s), (quote s).length) := by
  have htext : quote s ++ rest = '"' :: (s.toList.flatMap escape ++ '"' :: rest) := by
    rw [quote, List.cons_append, List.append_assoc]
    rfl
  have hlength : (quote s).length = 1 + ((s.toList.flatMap escape).length + 1) := by
    rw [quote, List.length_cons, List.length_append, List.length_singleton, Nat.add_comm]
  rw [htext, hlength]
  show quotedAt '"' (s.toList.flatMap escape ++ '"' :: rest) = _
  rw [quotedAt, quotedFrom_flatMap_escape]
  cases s.toList.any isSeparator with
  | true => rfl
  | false =>
      rw [if_neg Bool.false_ne_true, if_neg Bool.false_ne_true]
      simp only [joinPieces_map_pieceOf, String.ofList_toList]

end Devcontainer.Document
