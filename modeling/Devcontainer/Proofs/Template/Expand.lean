import Devcontainer.Proofs.Template.Form
import Devcontainer.Proofs.Template.Reference

/-!
# Expanding a text

An expansion replaces the names of the workspace and reads what comes of it in pieces. Text without
`$` is left as it is, and so is such a head of any text.
-/

namespace Devcontainer.Template

def piecesOf (c : Context) (template : String) : List Piece :=
  pieces (replaceTokens (tokens c) template.toList)

def textOf (env : String → Option String) (ps : List Piece) : List Char :=
  ps.flatMap (Piece.text env)

/-- The host's value of a name, when it is set and not empty. -/
def host? (env : String → Option String) (name : List Char) : Option (List Char) :=
  (env (String.ofList name)).bind fun value => if value = "" then none else some value.toList

/-! ## Pieces -/

theorem textOf_cons (env : String → Option String) (p : Piece) (ps : List Piece) :
    textOf env (p :: ps) = p.text env ++ textOf env ps := rfl

theorem textOf_append (env : String → Option String) (ps qs : List Piece) :
    textOf env (ps ++ qs) = textOf env ps ++ textOf env qs :=
  List.flatMap_append

theorem written_map_char_pieces (text : List Char) :
    (text.map Piece.char).flatMap Piece.written = text := by
  rw [List.flatMap_map]
  exact List.flatMap_singleton' text

theorem text_map_char (env : String → Option String) (text : List Char) :
    (text.map Piece.char).flatMap (Piece.text env) = text := by
  rw [List.flatMap_map]
  exact List.flatMap_singleton' text

theorem missing_map_char (env : String → Option String) (text : List Char) :
    (text.map Piece.char).filterMap (Piece.missing? env) = [] := by
  induction text with
  | nil => rfl
  | cons c text ih =>
      rw [List.map_cons]
      exact ih

theorem written_map_char_append (head : List Char) (tail : List Piece) :
    (head.map Piece.char ++ tail).flatMap Piece.written = head ++ tail.flatMap Piece.written := by
  rw [List.flatMap_append, written_map_char_pieces]

theorem textOf_map_char_append (env : String → Option String) (head : List Char)
    (tail : List Piece) : textOf env (head.map .char ++ tail) = head ++ textOf env tail := by
  rw [textOf_append]
  exact congrArg (· ++ textOf env tail) (text_map_char env head)

theorem value?_eq (env : String → Option String) (r : Reference) :
    r.value? env = (host? env r.name).or (r.default?.filter (!·.isEmpty)) := by
  unfold Reference.value? host?
  cases env (String.ofList r.name) with
  | none => rfl
  | some value => by_cases h : value = "" <;> simp [h, Option.filter_some]

theorem not_mem_host? {env : String → Option String} {x : Char}
    (henv : ∀ name value, env name = some value → x ∉ value.toList) {name value : List Char}
    (h : host? env name = some value) : x ∉ value := by
  obtain ⟨v, hv, hvalue⟩ := Option.bind_eq_some_iff.1 h
  split at hvalue
  next => cases hvalue
  next =>
    cases hvalue
    exact henv _ v hv

theorem Piece.not_mem_text {env : String → Option String} {x : Char}
    (henv : ∀ name value, env name = some value → x ∉ value.toList) {p : Piece}
    (h : x ∉ p.written) : x ∉ p.text env := by
  cases p with
  | char c => exact h
  | reference r =>
      rw [text, value?_eq]
      cases hhost : host? env r.name with
      | some value => exact not_mem_host? henv hhost
      | none =>
          rw [Option.none_or]
          cases hdefault : r.default?.filter (!·.isEmpty) with
          | none => exact h
          | some d =>
              have hd : r.default? = some d := (Option.filter_eq_some_iff.1 hdefault).1
              intro hmem
              apply h
              simp only [Option.getD_some] at hmem
              simp [written, Reference.written, hd, hmem]

/-! ## Texts -/

theorem toList_text_expand (c : Context) (template : String) :
    (expand c template).text.toList = textOf c.env (piecesOf c template) :=
  String.toList_ofList

theorem missing_expand (c : Context) (template : String) :
    (expand c template).missing = (piecesOf c template).filterMap (Piece.missing? c.env) := by
  simp only [expand, piecesOf]

theorem piecesOf_append_of_not_mem {c : Context} {head : List Char} (h : '$' ∉ head)
    (rest : List Char) : piecesOf c (String.ofList (head ++ rest)) =
      head.map .char ++ piecesOf c (String.ofList rest) := by
  unfold piecesOf
  rw [String.toList_ofList, String.toList_ofList, tokens_eq,
    replaceTokens_append_of_not_mem _ h, pieces_append_of_not_mem h]

theorem expand_append_of_not_mem {c : Context} {head : List Char} (h : '$' ∉ head)
    (rest : List Char) : (expand c (String.ofList (head ++ rest))).text.toList =
      head ++ (expand c (String.ofList rest)).text.toList := by
  rw [toList_text_expand, piecesOf_append_of_not_mem h, textOf_map_char_append,
    ← toList_text_expand]

theorem expand_of_not_mem {c : Context} {text : String} (h : '$' ∉ text.toList) :
    (expand c text).text = text := by
  have happend := expand_append_of_not_mem (c := c) h []
  have hnil : piecesOf c (String.ofList []) = [] := by
    rw [piecesOf, String.toList_ofList, tokens_eq, replaceTokens_nil]
    rfl
  rw [List.append_nil, String.ofList_toList, toList_text_expand c (String.ofList []), hnil]
    at happend
  rw [← String.toList_inj, happend]
  exact List.append_nil _

/-- A character that neither the workspace nor the host has stands in an expansion only if it stands
in the template. -/
theorem not_mem_expand {c : Context} {x : Char} (hc : Lacks c x)
    (henv : ∀ name value, c.env name = some value → x ∉ value.toList) {template : String}
    (h : x ∉ template.toList) : x ∉ (expand c template).text.toList := by
  rw [toList_text_expand, textOf, List.mem_flatMap]
  rintro ⟨p, hp, hmem⟩
  have hreplaced : x ∉ replaceTokens (tokens c) template.toList := by
    rw [tokens_eq]
    exact not_mem_replaceTokens hc Form.all h
  obtain ⟨before, after, htext⟩ := exists_append_of_mem_pieces hp
  have hwritten : x ∉ p.written := fun hx => hreplaced (by rw [htext]; simp [hx])
  exact Piece.not_mem_text henv hwritten hmem

end Devcontainer.Template
