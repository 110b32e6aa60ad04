import Devcontainer.Document.Numeral
import Devcontainer.Json.Printer
import Devcontainer.Proofs.Decimal.Shortest

/-!
# Printed numbers are read back

A whole number is printed by its digits, a double by the digits of its shortest decimal with a point
or an exponent. What is read behind a number is a comma or a line end, so no number is read too far.
-/

namespace Devcontainer

def Number.Readable : Number → Prop
  | .int n => -0x8000000000000000 ≤ n ∧ n < 0x8000000000000000
  | .float x => x.Normal

namespace Document

open Text

theorem readable_of_value? {negative : Bool} {n : Numeral} {v : Json}
    (h : n.value? negative = some v) : ∃ k : Number, v = .number k ∧ k.Readable := by
  unfold Numeral.value? at h
  split at h
  next =>
    obtain ⟨hrange, hv⟩ := Option.ite_none_right_eq_some.1 h
    exact ⟨_, (Option.some.inj hv).symm, hrange⟩
  next =>
    obtain ⟨x, hx, rfl⟩ := Option.map_eq_some_iff.1 h
    exact ⟨_, rfl, Binary64.normal_of_ofDecimal? hx⟩

/-- What is read as a number is one that a document can hold, or stands for one that is not
finite. -/
theorem readable_of_numberAt {text : List Char} {v : Json} {width : Nat}
    (h : numberAt text = some (v, width)) :
    v = .null ∨ ∃ k : Number, v = .number k ∧ k.Readable := by
  unfold numberAt at h
  simp only at h
  split at h
  next digits _ =>
    obtain ⟨-, hn⟩ := Option.ite_none_left_eq_some.1 h
    obtain ⟨k, hk, hn⟩ := Option.map_eq_some_iff.1 hn
    obtain ⟨rfl, -⟩ := Prod.mk.inj hn
    obtain ⟨n, hfilter, hn⟩ := Option.bind_eq_some_iff.1 hk
    obtain rfl := Option.some.inj hn
    obtain ⟨-, hlt⟩ := Option.filter_eq_some_iff.1 hfilter
    have hsize : n < UInt32.size := by simpa using hlt
    refine .inr ⟨.int n, rfl, ?_⟩
    rw [UInt32.size] at hsize
    constructor <;> omega
  next =>
    split at h
    next =>
      obtain ⟨-, hn⟩ := Option.ite_none_left_eq_some.1 h
      exact .inl (Prod.mk.inj (Option.some.inj hn)).1.symm
    next =>
      obtain ⟨n, -, h⟩ := Option.bind_eq_some_iff.1 h
      obtain ⟨u, hu, h⟩ := Option.bind_eq_some_iff.1 h
      obtain ⟨rfl, -⟩ := Prod.mk.inj (Option.some.inj h)
      exact .inr (readable_of_value? hu)

/-! ## Digits -/

theorem isDigit_of_mem_toDigits {n : Nat} : ∀ c ∈ Nat.toDigits 10 n, isDigit c = true := fun _ hc =>
  Nat.isDigit_of_mem_toDigits (by decide) (by decide) hc

theorem digitsValue_toDigits (n : Nat) : digitsValue (Nat.toDigits 10 n) = n :=
  Nat.ofDigitChars_ten_toDigits

theorem digitsValue_append (ds es : List Char) :
    digitsValue (ds ++ es) = digitsValue ds * 10 ^ es.length + digitsValue es := by
  show Nat.ofDigitChars 10 (ds ++ es) 0 = _
  rw [Nat.ofDigitChars_append, Nat.ofDigitChars_eq_ofDigitChars_zero, Nat.mul_comm]
  rfl

theorem digitsValue_replicate_zero (k : Nat) : digitsValue (List.replicate k '0') = 0 := by
  show Nat.ofDigitChars 10 (List.replicate k '0') 0 = 0
  simp

/-- Digits as they stand before a point: a leading zero stands alone. -/
structure Whole (ds : List Char) : Prop where
  ne_nil : ds ≠ []
  digits : ∀ c ∈ ds, isDigit c = true
  zero : ds.head? = some '0' → ds = ['0']

theorem Whole.head?_of_append {ds tail rest : List Char} {c : Char} (hds : Whole ds)
    (h : ds ++ tail = c :: rest) : ds.head? = some c := by
  rw [← List.head?_append_of_ne_nil _ hds.ne_nil, h, List.head?_cons]

theorem head?_toDigits_ne_zero {n : Nat} (hn : 0 < n) : (Nat.toDigits 10 n).head? ≠ some '0' := by
  induction n using Nat.strong_induction_on with
  | _ n ih =>
      rw [Nat.toDigits_eq_if (by decide)]
      split
      next hlt =>
        interval_cases n <;> decide
      next hge =>
        have hdiv : 0 < n / 10 := by omega
        rw [List.head?_append_of_ne_nil _ (Nat.toDigits_ne_nil)]
        exact ih (n / 10) (by omega) hdiv

theorem whole_toDigits (n : Nat) : Whole (Nat.toDigits 10 n) where
  ne_nil := Nat.toDigits_ne_nil
  digits := isDigit_of_mem_toDigits
  zero h := by
    rcases Nat.eq_zero_or_pos n with rfl | hn
    · exact Nat.toDigits_zero 10
    · exact absurd h (head?_toDigits_ne_zero hn)

/-! ## The parts of a number -/

def NoDigit (tail : List Char) : Prop :=
  ∀ c ∈ tail.head?, isDigit c = false

/-- What may stand behind a value in print. -/
def Breaks (rest : List Char) : Prop :=
  ∀ c ∈ rest.head?, c = ',' ∨ c = '\n'

/-- What may stand behind the digits of a number in print. -/
def Ends (tail : List Char) : Prop :=
  ∀ c ∈ tail.head?, c = 'e' ∨ c = ',' ∨ c = '\n'

theorem Breaks.ends {rest : List Char} (h : Breaks rest) : Ends rest := fun c hc => .inr (h c hc)

theorem Ends.noDigit {tail : List Char} (h : Ends tail) : NoDigit tail := by
  intro c hc
  rcases h c hc with rfl | rfl | rfl <;> rfl

theorem takeWhile_isDigit_append {ds tail : List Char} (hds : ∀ c ∈ ds, isDigit c = true)
    (htail : NoDigit tail) : (ds ++ tail).takeWhile isDigit = ds := by
  rw [List.takeWhile_append_of_pos hds]
  cases tail with
  | nil => simp
  | cons c tail => simp [htail c rfl]

theorem wholeDigits_append {ds tail : List Char} (hds : Whole ds) (htail : NoDigit tail) :
    wholeDigits (ds ++ tail) = ds := by
  unfold wholeDigits
  split
  next rest heq => exact (hds.zero (hds.head?_of_append heq)).symm
  next => exact takeWhile_isDigit_append hds.digits htail

def fractionText : Option (List Char) → List Char
  | none => []
  | some fraction => '.' :: fraction

theorem noDigit_fractionText {tail : List Char} (htail : Ends tail) (fraction : Option (List Char)) :
    NoDigit (fractionText fraction ++ tail) := by
  cases fraction with
  | none => exact htail.noDigit
  | some fraction =>
      intro c hc
      obtain rfl := Option.some.inj hc
      rfl

def fractionAt : List Char → Option (List Char)
  | '.' :: rest => some (rest.takeWhile isDigit)
  | _ => none

theorem fractionAt_append {fraction : Option (List Char)} {tail : List Char}
    (hfraction : ∀ f ∈ fraction, ∀ c ∈ f, isDigit c = true) (htail : Ends tail) :
    fractionAt (fractionText fraction ++ tail) = fraction := by
  cases fraction with
  | none =>
      show fractionAt tail = none
      unfold fractionAt
      split
      next rest => exact absurd (htail '.' rfl) (by decide)
      next => rfl
  | some f => exact congrArg some (takeWhile_isDigit_append (hfraction f rfl) htail.noDigit)

def fractionWidth : Option (List Char) → Nat
  | some f => 1 + f.length
  | none => 0

theorem length_fractionText (fraction : Option (List Char)) :
    (fractionText fraction).length = fractionWidth fraction := by
  cases fraction <;> simp [fractionText, fractionWidth, Nat.add_comm]

theorem numeralAt_eq (text : List Char) :
    numeralAt text =
      let whole := wholeDigits text
      let fraction := fractionAt (text.drop whole.length)
      if whole.isEmpty && (fraction.getD []).isEmpty then none
      else
        let width := whole.length + fractionWidth fraction
        match exponentAt (text.drop width) with
        | some (e, w) => some ⟨whole, fraction, some e, width + w⟩
        | none => some ⟨whole, fraction, none, width⟩ := rfl

theorem numeralAt_append {ds tail : List Char} {fraction : Option (List Char)} (hds : Whole ds)
    (hfraction : ∀ f ∈ fraction, ∀ c ∈ f, isDigit c = true) (htail : Ends tail) :
    numeralAt (ds ++ (fractionText fraction ++ tail)) =
      some ⟨ds, fraction, (exponentAt tail).map Prod.fst,
        (ds ++ fractionText fraction).length + ((exponentAt tail).map Prod.snd).getD 0⟩ := by
  have hne : ds.isEmpty = false := by simpa using hds.ne_nil
  have hwidth : ds.length + fractionWidth fraction = (ds ++ fractionText fraction).length := by
    rw [List.length_append, length_fractionText]
  rw [numeralAt_eq]
  simp only [wholeDigits_append hds (noDigit_fractionText htail fraction), List.drop_left, hne,
    fractionAt_append hfraction htail, Bool.false_and, Bool.false_eq_true, if_false, hwidth]
  rw [← List.append_assoc, List.drop_left]
  cases exponentAt tail <;> rfl

theorem exponentAt_of_breaks {rest : List Char} (h : Breaks rest) : exponentAt rest = none := by
  cases rest with
  | nil => rfl
  | cons c rest =>
      rcases h c rfl with rfl | rfl <;> rfl

def exponentText (e : Int) : List Char :=
  'e' :: (if e < 0 then '-' else '+') :: Nat.toDigits 10 e.natAbs

theorem exponentAt_minus (text : List Char) : exponentAt ('e' :: '-' :: text) =
    let digits := text.takeWhile isDigit
    if digits.isEmpty then none else some (-(digitsValue digits : Int), 2 + digits.length) := rfl

theorem exponentAt_plus (text : List Char) : exponentAt ('e' :: '+' :: text) =
    let digits := text.takeWhile isDigit
    if digits.isEmpty then none else some ((digitsValue digits : Int), 2 + digits.length) := rfl

theorem exponentAt_exponentText (e : Int) {rest : List Char} (h : Breaks rest) :
    exponentAt (exponentText e ++ rest) = some (e, (exponentText e).length) := by
  have hdigits := takeWhile_isDigit_append (isDigit_of_mem_toDigits (n := e.natAbs)) h.ends.noDigit
  have hne : (Nat.toDigits 10 e.natAbs).isEmpty = false := by simp
  have hwidth : 2 + (Nat.toDigits 10 e.natAbs).length = (exponentText e).length := by
    rw [exponentText, List.length_cons, List.length_cons]
    omega
  rw [exponentText] at hwidth ⊢
  by_cases he : e < 0
  · have hvalue : -((e.natAbs : Nat) : Int) = e := by omega
    rw [if_pos he] at hwidth ⊢
    simp only [List.cons_append, exponentAt_minus, hdigits, hne, digitsValue_toDigits, hvalue,
      hwidth, Bool.false_eq_true, if_false]
  · have hvalue : ((e.natAbs : Nat) : Int) = e := by omega
    rw [if_neg he] at hwidth ⊢
    simp only [List.cons_append, exponentAt_plus, hdigits, hne, digitsValue_toDigits, hvalue,
      hwidth, Bool.false_eq_true, if_false]

/-! ## Signs -/

def signText (negative : Bool) : List Char :=
  if negative then ['-'] else []

def numberFrom (sign : Option Bool) (rest : List Char) : Option (Json × Nat) :=
  let signWidth := if sign.isSome then 1 else 0
  match hexDigitsAt rest with
  | some digits =>
    if sign.isSome then none
    else ((hexValue? digits).filter (· < UInt32.size)).map fun n =>
      (.number (.int n), 2 + digits.length)
  | none =>
    match notFiniteAt rest with
    | some word => if sign = some false then none else some (.null, signWidth + word.length)
    | none => do
      let n ← numeralAt rest
      let v ← n.value? (sign = some true)
      some (v, signWidth + n.width)

def signAt : List Char → Option Bool × List Char
  | '-' :: rest => (some true, rest)
  | '+' :: rest => (some false, rest)
  | rest => (none, rest)

theorem numberAt_eq (text : List Char) :
    numberAt text = numberFrom (signAt text).1 (signAt text).2 := rfl

theorem signAt_of_whole {ds : List Char} (hds : Whole ds) (tail : List Char) :
    signAt (ds ++ tail) = (none, ds ++ tail) := by
  unfold signAt
  split
  next rest heq =>
    have hmem : '-' ∈ ds := List.mem_of_head? (hds.head?_of_append heq)
    exact absurd (hds.digits '-' hmem) (by decide)
  next rest heq =>
    have hmem : '+' ∈ ds := List.mem_of_head? (hds.head?_of_append heq)
    exact absurd (hds.digits '+' hmem) (by decide)
  next => rfl

theorem hexDigitsAt_append {ds tail : List Char} (hds : Whole ds)
    (htail : ∀ c ∈ tail.head?, c ≠ 'x' ∧ c ≠ 'X') : hexDigitsAt (ds ++ tail) = none := by
  unfold hexDigitsAt
  split
  next x rest heq =>
    obtain rfl := hds.zero (hds.head?_of_append heq)
    have hrest : tail = x :: rest := (List.cons.inj heq).2
    obtain ⟨hx, hX⟩ := htail x (hrest ▸ rfl)
    simp [hx, hX]
  next => rfl

theorem notFiniteAt_append {ds : List Char} (hds : Whole ds) (tail : List Char) :
    notFiniteAt (ds ++ tail) = none := by
  have hword : ∀ word : List Char, word.head?.any isDigit = false → word ≠ [] →
      word.isPrefixOf (ds ++ tail) = false := by
    intro word hdigit hne
    obtain ⟨c, word, rfl⟩ := List.exists_cons_of_ne_nil hne
    obtain ⟨d, ds, rfl⟩ := List.exists_cons_of_ne_nil hds.ne_nil
    have hd := hds.digits d (List.mem_cons_self ..)
    have hc : isDigit c = false := hdigit
    have hcd : (c == d) = false := by
      rw [beq_eq_false_iff_ne]
      rintro rfl
      rw [hc] at hd
      cases hd
    simp [List.isPrefixOf, hcd]
  unfold notFiniteAt
  rw [List.find?_eq_none]
  simp only [List.forall_mem_cons]
  refine ⟨?_, ?_, List.forall_mem_nil _⟩
  · rw [hword _ (by decide) (by decide)]
    decide
  · rw [hword _ (by decide) (by decide)]
    decide

theorem numberAt_append (negative : Bool) {ds tail : List Char} {fraction : Option (List Char)}
    (hds : Whole ds) (hfraction : ∀ f ∈ fraction, ∀ c ∈ f, isDigit c = true) (htail : Ends tail) :
    numberAt (signText negative ++ (ds ++ (fractionText fraction ++ tail))) =
      (Numeral.value? negative ⟨ds, fraction, (exponentAt tail).map Prod.fst, 0⟩).map fun v =>
        (v, (signText negative ++ (ds ++ fractionText fraction)).length +
          ((exponentAt tail).map Prod.snd).getD 0) := by
  have hsign : signAt (signText negative ++ (ds ++ (fractionText fraction ++ tail))) =
      (if negative then some true else none, ds ++ (fractionText fraction ++ tail)) := by
    cases negative with
    | false => exact signAt_of_whole hds _
    | true => rfl
  have hhex : hexDigitsAt (ds ++ (fractionText fraction ++ tail)) = none := by
    apply hexDigitsAt_append hds
    intro c hc
    cases fraction with
    | none => rcases htail c hc with rfl | rfl | rfl <;> decide
    | some f =>
        obtain rfl := Option.some.inj hc
        decide
  have hread : ∀ n : Numeral, numeralAt (ds ++ (fractionText fraction ++ tail)) = some n →
      numberFrom (if negative then some true else none) (ds ++ (fractionText fraction ++ tail)) =
        (n.value? negative).map fun v => (v, (signText negative).length + n.width) := by
    intro n hn
    rw [numberFrom, hhex, notFiniteAt_append hds, hn]
    cases negative <;> exact Option.map_eq_bind.symm
  rw [numberAt_eq, hsign, hread _ (numeralAt_append hds hfraction htail)]
  simp only [List.length_append, Nat.add_assoc]
  -- the value of a numeral does not depend on its width
  rfl

/-! ## Numbers in print -/

theorem writeNumber_int (n : Int) : Json.writeNumber (.int n) =
    signText (decide (n < 0)) ++ (Nat.toDigits 10 n.natAbs ++ fractionText none) := by
  unfold Json.writeNumber signText
  by_cases h : n < 0 <;> simp [h, fractionText]

theorem numberAt_int {n : Int} (hn : (Number.int n).Readable) {rest : List Char}
    (hrest : Breaks rest) : numberAt (Json.writeNumber (.int n) ++ rest) =
      some (.number (.int n), (Json.writeNumber (.int n)).length) := by
  have hvalue : Numeral.value? (decide (n < 0)) ⟨Nat.toDigits 10 n.natAbs, none, none, 0⟩ =
      some (.number (.int n)) := by
    have hn' : (if decide (n < 0) then -((n.natAbs : Nat) : Int) else n.natAbs) = n := by
      by_cases h : n < 0
      · rw [if_pos (by simpa using h)]
        omega
      · rw [if_neg (by simpa using h)]
        omega
    simp only [Numeral.value?, digitsValue_toDigits, hn']
    exact if_pos hn
  have happend : Json.writeNumber (.int n) ++ rest = signText (decide (n < 0)) ++
      (Nat.toDigits 10 n.natAbs ++ (fractionText none ++ rest)) := by
    rw [writeNumber_int, List.append_assoc, List.append_assoc]
  rw [happend, numberAt_append _ (whole_toDigits _) (fun _ hf => by cases hf) hrest.ends,
    exponentAt_of_breaks hrest, writeNumber_int, Option.map_none, Option.map_none, hvalue]
  rfl

theorem value?_of_float (negative : Bool) {ds : List Char} {fraction : Option (List Char)}
    {exponent : Option Int} (h : fraction.isSome = true ∨ exponent.isSome = true) (width : Nat) :
    Numeral.value? negative ⟨ds, fraction, exponent, width⟩ =
      (Binary64.ofDecimal? negative (digitsValue (ds ++ fraction.getD []))
        (exponent.getD 0 - (fraction.getD []).length)).map fun x => .number (.float x) := by
  cases fraction with
  | some f => cases exponent <;> rfl
  | none =>
      cases exponent with
      | some e => rfl
      | none => simp at h

theorem Whole.take {ds : List Char} (h : Whole ds) {k : Nat} (hk : 0 < k) : Whole (ds.take k) where
  ne_nil hnil := by
    rcases List.take_eq_nil_iff.1 hnil with hzero | hnil
    · exact absurd hzero hk.ne'
    · exact h.ne_nil hnil
  digits c hc := h.digits c (List.mem_of_mem_take hc)
  zero hhead := by
    rw [List.head?_take, if_neg hk.ne'] at hhead
    rw [h.zero hhead, List.take_of_length_le (by rw [List.length_singleton]; omega)]

theorem Whole.append_zeros {ds : List Char} (h : Whole ds) (hhead : ds.head? ≠ some '0') (k : Nat) :
    Whole (ds ++ List.replicate k '0') where
  ne_nil hnil := h.ne_nil (List.append_eq_nil_iff.1 hnil).1
  digits c hc := by
    rcases List.mem_append.1 hc with hc | hc
    · exact h.digits c hc
    · rw [List.eq_of_mem_replicate hc]
      rfl
  zero hzero := by
    rw [List.head?_append_of_ne_nil _ h.ne_nil] at hzero
    exact absurd hzero hhead

theorem isDigit_of_mem_replicate_zero {k : Nat} : ∀ c ∈ List.replicate k '0', isDigit c = true := by
  intro c hc
  rw [List.eq_of_mem_replicate hc]
  rfl

section

open Binary64 DecimalLayout

/-- Digits with a point between them that spell a decimal. -/
structure Spells (text : List Char) (n : Nat) (power : Int) (ds f : List Char) : Prop where
  whole : Whole ds
  digits : ∀ c ∈ f, isDigit c = true
  text_eq : text = ds ++ fractionText (some f)
  value : ∀ negative, ofDecimal? negative (digitsValue (ds ++ f)) (0 - f.length) =
    ofDecimal? negative n power

theorem spells_positional_small (n : Nat) {lead : Int} (hlead : lead < 0) :
    Spells (positional (Nat.toDigits 10 n) lead) n (lead + 1 - (Nat.toDigits 10 n).length) ['0']
      (List.replicate (-lead - 1).toNat '0' ++ Nat.toDigits 10 n) where
  whole := whole_toDigits 0
  digits := List.forall_mem_append.2 ⟨isDigit_of_mem_replicate_zero, isDigit_of_mem_toDigits⟩
  text_eq := by
    rw [positional, if_pos hlead]
    rfl
  value negative := by
    have hvalue : digitsValue (['0'] ++ (List.replicate (-lead - 1).toNat '0' ++
        Nat.toDigits 10 n)) = n := by
      rw [← List.append_assoc, digitsValue_append, digitsValue_toDigits, ← List.replicate_one,
        List.replicate_append_replicate, digitsValue_replicate_zero, Nat.zero_mul, Nat.zero_add]
    have hpower : 0 - ((List.replicate (-lead - 1).toNat '0' ++ Nat.toDigits 10 n).length : Int) =
        lead + 1 - (Nat.toDigits 10 n).length := by
      rw [List.length_append, List.length_replicate]
      omega
    rw [hvalue, hpower]

theorem spells_positional_great {n : Nat} {lead : Nat} (hn : n = 0 → lead = 0)
    (hlength : (Nat.toDigits 10 n).length ≤ lead + 1) :
    Spells (positional (Nat.toDigits 10 n) lead) n (lead + 1 - (Nat.toDigits 10 n).length)
      (Nat.toDigits 10 n ++ List.replicate (lead + 1 - (Nat.toDigits 10 n).length) '0') ['0'] where
  whole := by
    rcases Nat.eq_zero_or_pos n with rfl | hpos
    · rw [hn rfl, Nat.toDigits_zero]
      exact whole_toDigits 0
    · exact (whole_toDigits n).append_zeros (head?_toDigits_ne_zero hpos) _
  digits := fun c hc => List.mem_singleton.1 hc ▸ rfl
  text_eq := by
    rw [positional, if_neg (by omega)]
    simp only [Int.toNat_natCast, List.take_of_length_le hlength, List.drop_of_length_le hlength]
    rfl
  value negative := by
    have hvalue : digitsValue (Nat.toDigits 10 n ++
        List.replicate (lead + 1 - (Nat.toDigits 10 n).length) '0' ++ ['0']) =
          n * 10 ^ (lead + 1 - (Nat.toDigits 10 n).length + 1) := by
      rw [List.append_assoc, ← List.replicate_one, List.replicate_append_replicate,
        digitsValue_append, digitsValue_toDigits, digitsValue_replicate_zero,
        List.length_replicate, Nat.add_zero]
    rw [hvalue, ofDecimal?_mul_pow]
    congr 1
    rw [List.length_singleton]
    omega

theorem spells_positional_between {n : Nat} {lead : Nat}
    (hlength : lead + 1 < (Nat.toDigits 10 n).length) :
    Spells (positional (Nat.toDigits 10 n) lead) n (lead + 1 - (Nat.toDigits 10 n).length)
      ((Nat.toDigits 10 n).take (lead + 1)) ((Nat.toDigits 10 n).drop (lead + 1)) where
  whole := (whole_toDigits n).take (Nat.succ_pos lead)
  digits c hc := isDigit_of_mem_toDigits c (List.mem_of_mem_drop hc)
  text_eq := by
    have hne : ((Nat.toDigits 10 n).drop (lead + 1)).isEmpty = false := by
      rw [List.isEmpty_eq_false_iff, ← List.length_pos_iff, List.length_drop]
      omega
    have hnone : lead + 1 - (Nat.toDigits 10 n).length = 0 := by omega
    rw [positional, if_neg (by omega)]
    simp only [Int.toNat_natCast, hne, hnone, Bool.false_eq_true, if_false]
    exact congrArg (· ++ _) (List.append_nil _)
  value negative := by
    rw [List.take_append_drop, digitsValue_toDigits, List.length_drop]
    congr 1
    omega

theorem exists_spells_positional {n : Nat} {lead : Int} (hn : n = 0 → lead = 0) :
    ∃ ds f, Spells (positional (Nat.toDigits 10 n) lead) n (lead + 1 - (Nat.toDigits 10 n).length)
      ds f := by
  by_cases hneg : lead < 0
  · exact ⟨_, _, spells_positional_small n hneg⟩
  · obtain ⟨k, rfl⟩ := Int.eq_ofNat_of_zero_le (not_lt.1 hneg)
    by_cases hlength : (Nat.toDigits 10 n).length ≤ k + 1
    · exact ⟨_, _, spells_positional_great (fun h => by exact_mod_cast hn h) hlength⟩
    · exact ⟨_, _, spells_positional_between (not_le.1 hlength)⟩

def scientificFraction (ds : List Char) : Option (List Char) :=
  if ds.drop 1 = [] then none else some (ds.drop 1)

theorem scientific_eq (ds : List Char) (lead : Int) :
    scientific ds lead =
      ds.take 1 ++ (fractionText (scientificFraction ds) ++ exponentText lead) := by
  unfold scientific scientificFraction
  rw [List.append_assoc]
  cases ds.drop 1 <;> rfl

theorem getD_scientificFraction (ds : List Char) : (scientificFraction ds).getD [] = ds.drop 1 := by
  unfold scientificFraction
  split
  next h => exact h.symm
  next => rfl

theorem shortest_digits_ne_zero {x : Binary64} (hx : x.Normal) (hm : x.mantissa ≠ 0) :
    x.shortest.digits ≠ 0 := by
  intro hzero
  have hreads := ofDecimal?_shortest hx
  rw [ofDecimal?, if_pos (Or.inl hzero)] at hreads
  rw [← Option.some.inj hreads] at hm
  exact hm rfl

theorem shortest_of_mantissa_eq_zero {x : Binary64} (hm : x.mantissa = 0) :
    x.shortest = ⟨0, 0⟩ := by
  rw [shortest, if_pos hm]

variable {negative : Bool} {n : Nat} {lead : Int} {x : Binary64} {rest : List Char}

theorem numberAt_positional (hn : n = 0 → lead = 0)
    (hx : ofDecimal? negative n (lead + 1 - (Nat.toDigits 10 n).length) = some x)
    (hrest : Breaks rest) :
    numberAt (signText negative ++ positional (Nat.toDigits 10 n) lead ++ rest) =
      some (.number (.float x),
        (signText negative ++ positional (Nat.toDigits 10 n) lead).length) := by
  obtain ⟨ds, f, hspells⟩ := exists_spells_positional hn
  have hdigits : ∀ g ∈ some f, ∀ c ∈ g, isDigit c = true := fun g hg =>
    Option.some.inj hg ▸ hspells.digits
  rw [hspells.text_eq, List.append_assoc, List.append_assoc,
    numberAt_append _ hspells.whole hdigits hrest.ends, exponentAt_of_breaks hrest,
    value?_of_float _ (Or.inl rfl)]
  simp only [Option.getD_some, Option.map_none, Option.getD_none]
  rw [hspells.value, hx]
  rfl

theorem numberAt_scientific
    (hx : ofDecimal? negative n (lead + 1 - (Nat.toDigits 10 n).length) = some x)
    (hrest : Breaks rest) :
    numberAt (signText negative ++ scientific (Nat.toDigits 10 n) lead ++ rest) =
      some (.number (.float x),
        (signText negative ++ scientific (Nat.toDigits 10 n) lead).length) := by
  have hwhole := (whole_toDigits n).take Nat.one_pos
  have hdigits : ∀ g ∈ scientificFraction (Nat.toDigits 10 n), ∀ c ∈ g, isDigit c = true := by
    intro g hg c hc
    obtain ⟨-, hg⟩ := Option.ite_none_left_eq_some.1 hg
    obtain rfl := Option.some.inj hg
    exact isDigit_of_mem_toDigits c (List.mem_of_mem_drop hc)
  have hends : Ends (exponentText lead ++ rest) := fun c hc => .inl (Option.some.inj hc).symm
  have hpower : (Option.map Prod.fst (some (lead, (exponentText lead).length))).getD 0 -
      (((Nat.toDigits 10 n).drop 1).length : Int) = lead + 1 - (Nat.toDigits 10 n).length := by
    have hpos : 0 < (Nat.toDigits 10 n).length := Nat.length_toDigits_pos
    rw [Option.map_some, Option.getD_some, List.length_drop]
    omega
  rw [scientific_eq, List.append_assoc, List.append_assoc, List.append_assoc,
    numberAt_append _ hwhole hdigits hends, exponentAt_exponentText lead hrest,
    value?_of_float _ (Or.inr rfl), getD_scientificFraction, List.take_append_drop,
    digitsValue_toDigits, hpower, hx]
  simp [Nat.add_assoc]

/-- The power of ten of the first digit in print. -/
def leadOf (x : Binary64) : Int :=
  x.shortest.power + (Nat.toDigits 10 x.shortest.digits).length - 1

theorem leadOf_eq_zero (hx : x.Normal) (h : x.shortest.digits = 0) : leadOf x = 0 := by
  have hm : x.mantissa = 0 := by
    by_contra hm
    exact shortest_digits_ne_zero hx hm h
  rw [leadOf, shortest_of_mantissa_eq_zero hm, Nat.toDigits_zero]
  rfl

theorem writeNumber_float (x : Binary64) : Json.writeNumber (.float x) = signText x.negative ++
    (if Json.numberLayout.plain (leadOf x) then
      positional (Nat.toDigits 10 x.shortest.digits) (leadOf x)
    else scientific (Nat.toDigits 10 x.shortest.digits) (leadOf x)) := rfl

theorem numberAt_float (hx : x.Normal) (hrest : Breaks rest) :
    numberAt (Json.writeNumber (.float x) ++ rest) =
      some (.number (.float x), (Json.writeNumber (.float x)).length) := by
  have hreads : ofDecimal? x.negative x.shortest.digits
      (leadOf x + 1 - (Nat.toDigits 10 x.shortest.digits).length) = some x := by
    have hpower : leadOf x + 1 - (Nat.toDigits 10 x.shortest.digits).length = x.shortest.power := by
      rw [leadOf]
      omega
    rw [hpower]
    exact ofDecimal?_shortest hx
  rw [writeNumber_float]
  split
  · exact numberAt_positional (leadOf_eq_zero hx) hreads hrest
  · exact numberAt_scientific hreads hrest

/-- Behind its sign a number in print starts with a digit. -/
theorem exists_whole_writeNumber {n : Number} (hn : n.Readable) : ∃ negative ds tail,
    Whole ds ∧ Json.writeNumber n = signText negative ++ (ds ++ tail) := by
  cases n with
  | int n => exact ⟨_, _, _, whole_toDigits n.natAbs, writeNumber_int n⟩
  | float x =>
      rw [writeNumber_float]
      split
      · obtain ⟨ds, f, hspells⟩ := exists_spells_positional (leadOf_eq_zero hn)
        exact ⟨_, _, _, hspells.whole, by rw [hspells.text_eq]⟩
      · exact ⟨_, _, _, (whole_toDigits _).take Nat.one_pos, by rw [scientific_eq]⟩

/-- A number in print is read back, whatever breaks it off. -/
theorem numberAt_writeNumber {n : Number} (hn : n.Readable) (hrest : Breaks rest) :
    numberAt (Json.writeNumber n ++ rest) = some (.number n, (Json.writeNumber n).length) := by
  cases n with
  | int n => exact numberAt_int hn hrest
  | float x => exact numberAt_float hn hrest

end

end Document

end Devcontainer
