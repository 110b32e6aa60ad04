/-!
# Texts

A text is a list of characters. It is read in pieces, has the occurrences of another text replaced,
is cut at separators, is trimmed, and spells numbers.
-/

namespace Devcontainer.Text

/-! ## Scanning

A scan walks over a text from left to right and cuts it into pieces. The piece at the head of what
remains decides how far the walk moves on, so a scan never looks at a character twice.
-/

section

variable {α β : Type}

/-- The pieces of a text after its first `skip` characters. `next` answers the piece at the head of
the text it is given and how many characters that piece covers; every piece covers at least one. -/
def scanFrom (next : List α → β × Nat) : (skip : Nat) → List α → List β
  | _, [] => []
  | skip + 1, _ :: rest => scanFrom next skip rest
  | 0, c :: rest =>
    match next (c :: rest) with
    | (piece, width) => piece :: scanFrom next (width - 1) rest

def scan (next : List α → β × Nat) (text : List α) : List β :=
  scanFrom next 0 text

@[simp] theorem scan_nil (next : List α → β × Nat) : scan next [] = [] := rfl

theorem scanFrom_eq_scan_drop (next : List α → β × Nat) (skip : Nat) (text : List α) :
    scanFrom next skip text = scan next (text.drop skip) := by
  induction text generalizing skip with
  | nil => simp [scanFrom]
  | cons c rest ih =>
      cases skip with
      | zero => rfl
      | succ skip => simpa [scanFrom] using ih skip

theorem scan_cons (next : List α → β × Nat) (c : α) (rest : List α) :
    scan next (c :: rest) =
      (next (c :: rest)).1 :: scan next (rest.drop ((next (c :: rest)).2 - 1)) := by
  rw [← scanFrom_eq_scan_drop]
  rfl

end

/-! ## Replacing every occurrence

Occurrences are taken from left to right and do not overlap. Text that a replacement puts in is not
searched again.
-/

def occurs (token : List Char) : List Char → Bool
  | [] => token.isEmpty
  | c :: rest => token.isPrefixOf (c :: rest) || occurs token rest

/-- The head of a text as `replaceAll` reads it: an occurrence of `token`, or one character. -/
def replaceHead (token value : List Char) (text : List Char) : List Char × Nat :=
  if token.isPrefixOf text then (value, token.length) else (text.take 1, 1)

/-- An empty `token` occurs before every character and at the end. -/
def replaceAll (token value text : List Char) : List Char :=
  if token.isEmpty then
    value ++ text.flatMap (fun c => c :: value)
  else
    (scan (replaceHead token value) text).flatten

@[simp] theorem replaceAll_nil {token : List Char} (value : List Char) (h : token ≠ []) :
    replaceAll token value [] = [] := by
  simp [replaceAll, h]

/-! ## Separators -/

/-- The parts between the separators; a text without one is a single part. -/
def splitOn (sep : Char) : List Char → List (List Char)
  | [] => [[]]
  | c :: rest =>
    if c = sep then
      [] :: splitOn sep rest
    else
      match splitOn sep rest with
      | [] => [[c]]
      | part :: parts => (c :: part) :: parts

/-- What stands before and after the first separator. -/
def cut (sep : Char) : List Char → Option (List Char × List Char)
  | [] => none
  | c :: rest =>
    if c = sep then some ([], rest)
    else (cut sep rest).map fun (before, after) => (c :: before, after)

theorem splitOn_ne_nil (sep : Char) (text : List Char) : splitOn sep text ≠ [] := by
  cases text with
  | nil => simp [splitOn]
  | cons c rest =>
      rw [splitOn]
      split
      · simp
      · split <;> simp

theorem cut_eq_some {sep : Char} {text before after : List Char}
    (h : cut sep text = some (before, after)) : text = before ++ sep :: after := by
  induction text generalizing before with
  | nil => simp [cut] at h
  | cons c rest ih =>
      rw [cut] at h
      split at h
      next hc =>
        obtain ⟨rfl, rfl⟩ : [] = before ∧ rest = after := by simpa using h
        simp [hc]
      next =>
        obtain ⟨⟨b, a⟩, hb, he⟩ := Option.map_eq_some_iff.1 h
        obtain ⟨rfl, rfl⟩ : c :: b = before ∧ a = after := by simpa using he
        simp [ih hb]

/-! ## Blanks -/

/-- The characters of the Unicode property `White_Space`. -/
def isBlank (c : Char) : Bool :=
  let n := c.toNat
  (0x09 ≤ n && n ≤ 0x0D) || n == 0x20 || n == 0x85 || n == 0xA0 || n == 0x1680
    || (0x2000 ≤ n && n ≤ 0x200A) || n == 0x2028 || n == 0x2029 || n == 0x202F || n == 0x205F
    || n == 0x3000

def trimStart (text : List Char) : List Char :=
  text.dropWhile isBlank

def trimEnd (text : List Char) : List Char :=
  (text.reverse.dropWhile isBlank).reverse

def trim (text : List Char) : List Char :=
  trimEnd (trimStart text)

/-! ## Whole numbers

Decimal digits are the ASCII ones; a plus sign may stand before them, a minus sign may not.
-/

def isDigit (c : Char) : Bool :=
  '0' ≤ c && c ≤ '9'

def digitValue (c : Char) : Nat :=
  c.toNat - '0'.toNat

def digitsValue (digits : List Char) : Nat :=
  digits.foldl (fun n c => 10 * n + digitValue c) 0

/-- The number a text spells, when it is at least one digit after an optional plus sign. -/
def natural? (text : List Char) : Option Nat :=
  let digits := match text with
    | '+' :: rest => rest
    | _ => text
  if digits.isEmpty || !digits.all isDigit then none else some (digitsValue digits)

def naturalBelow? (bound : Nat) (text : List Char) : Option Nat :=
  (natural? text).filter (· < bound)

def digits (n : Nat) : List Char :=
  Nat.toDigits 10 n

def hexDigitValue? (c : Char) : Option Nat :=
  if isDigit c then some (digitValue c)
  else if 'a' ≤ c && c ≤ 'f' then some (c.toNat - 'a'.toNat + 10)
  else if 'A' ≤ c && c ≤ 'F' then some (c.toNat - 'A'.toNat + 10)
  else none

def hexValue? (digits : List Char) : Option Nat :=
  digits.foldlM (fun n c => (hexDigitValue? c).map (16 * n + ·)) 0

end Devcontainer.Text
