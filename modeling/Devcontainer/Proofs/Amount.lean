import Devcontainer.Descriptor.Basic
import Devcontainer.Proofs.Document.Numeral

/-!
# Positive whole amounts

An amount is a positive whole number by its value, when it is given as a number, and by its digits,
when it is given as a text. A text is read into 64 bits, so a greater number that is spelt out is not
accepted, while the same number as such is.
-/

namespace Devcontainer

namespace Text

/-- The text spells `n` in decimal digits. A plus sign and zeros may stand before them. -/
def IsNumeral (text : List Char) (n : Nat) : Prop :=
  ∃ sign zeros, sign ∈ [[], ['+']] ∧
    text = sign ++ (List.replicate zeros '0' ++ Nat.toDigits 10 n)

theorem digitChar_digitValue {c : Char} (h : isDigit c = true) :
    digitValue c < 10 ∧ Nat.digitChar (digitValue c) = c := by
  have hrange : 48 ≤ c.toNat ∧ c.toNat ≤ 57 := by
    simpa [isDigit, Char.le_def, UInt32.le_iff_toNat_le] using h
  have hvalue : digitValue c = c.toNat - 48 := rfl
  have hlt : digitValue c < 10 := by omega
  refine ⟨hlt, Char.toNat_inj.1 ?_⟩
  rw [Nat.toNat_digitChar_of_lt_ten hlt]
  omega

theorem toDigits_append {ds : List Char} (h : ∀ c ∈ ds, isDigit c = true) {n : Nat} (hn : 0 < n) :
    Nat.toDigits 10 n ++ ds = Nat.toDigits 10 (Nat.ofDigitChars 10 ds n) := by
  induction ds generalizing n with
  | nil => rw [List.append_nil, Nat.ofDigitChars_nil]
  | cons c ds ih =>
      obtain ⟨hc, hds⟩ := List.forall_mem_cons.1 h
      obtain ⟨hlt, hchar⟩ := digitChar_digitValue hc
      have hstep : Nat.toDigits 10 n ++ [c] = Nat.toDigits 10 (10 * n + digitValue c) := by
        rw [← Nat.toDigits_append_toDigits (by decide) hn hlt, Nat.toDigits_of_lt_base hlt, hchar]
      calc Nat.toDigits 10 n ++ c :: ds = Nat.toDigits 10 n ++ [c] ++ ds := by simp
        _ = Nat.toDigits 10 (10 * n + digitValue c) ++ ds := by rw [hstep]
        _ = Nat.toDigits 10 (Nat.ofDigitChars 10 (c :: ds) n) := by
          rw [ih hds (by omega), Nat.ofDigitChars_cons]
          rfl

theorem exists_zeros_toDigits {ds : List Char} (hne : ds ≠ []) (h : ∀ c ∈ ds, isDigit c = true) :
    ∃ zeros, ds = List.replicate zeros '0' ++ Nat.toDigits 10 (digitsValue ds) := by
  induction ds with
  | nil => exact absurd rfl hne
  | cons c ds ih =>
      obtain ⟨hc, hds⟩ := List.forall_mem_cons.1 h
      obtain ⟨hlt, hchar⟩ := digitChar_digitValue hc
      have hvalue : digitsValue (c :: ds) = Nat.ofDigitChars 10 ds (digitValue c) := by
        show Nat.ofDigitChars 10 (c :: ds) 0 = _
        rw [Nat.ofDigitChars_cons, Nat.mul_zero, Nat.zero_add]
        rfl
      rw [hvalue]
      rcases Nat.eq_zero_or_pos (digitValue c) with hzero | hpos
      · obtain rfl : '0' = c := by rw [← hchar, hzero]; rfl
        cases ds with
        | nil => exact ⟨0, rfl⟩
        | cons d ds =>
            obtain ⟨zeros, hzeros⟩ := ih (List.cons_ne_nil _ _) hds
            exact ⟨zeros + 1, congrArg ('0' :: ·) hzeros⟩
      · refine ⟨0, ?_⟩
        rw [← toDigits_append hds hpos, Nat.toDigits_of_lt_base hlt, hchar]
        rfl

theorem isDigit_of_mem_zeros_toDigits {zeros n : Nat} :
    ∀ c ∈ List.replicate zeros '0' ++ Nat.toDigits 10 n, isDigit c = true :=
  List.forall_mem_append.2
    ⟨Document.isDigit_of_mem_replicate_zero, Document.isDigit_of_mem_toDigits⟩

theorem digitsValue_zeros_toDigits (zeros n : Nat) :
    digitsValue (List.replicate zeros '0' ++ Nat.toDigits 10 n) = n := by
  rw [Document.digitsValue_append, Document.digitsValue_replicate_zero,
    Document.digitsValue_toDigits, Nat.zero_mul, Nat.zero_add]

/-- How a text without a sign is read. -/
theorem unsigned_eq_some_iff {ds : List Char} {n : Nat} :
    (if ds.isEmpty || !ds.all isDigit then none else some (digitsValue ds)) = some n ↔
      ∃ zeros, ds = List.replicate zeros '0' ++ Nat.toDigits 10 n := by
  constructor
  · intro h
    obtain ⟨hdigits, hvalue⟩ := Option.ite_none_left_eq_some.1 h
    simp only [Bool.or_eq_true, Bool.not_eq_true', not_or, Bool.not_eq_false,
      List.all_eq_true, List.isEmpty_iff] at hdigits
    obtain ⟨zeros, hzeros⟩ := exists_zeros_toDigits hdigits.1 hdigits.2
    rw [Option.some.inj hvalue] at hzeros
    exact ⟨zeros, hzeros⟩
  · rintro ⟨zeros, rfl⟩
    have hne : (List.replicate zeros '0' ++ Nat.toDigits 10 n).isEmpty = false := by simp
    rw [hne, List.all_eq_true.2 isDigit_of_mem_zeros_toDigits, digitsValue_zeros_toDigits]
    rfl

theorem natural?_eq_some_iff {text : List Char} {n : Nat} :
    natural? text = some n ↔ IsNumeral text n := by
  constructor
  · intro h
    unfold natural? at h
    split at h
    next rest =>
      obtain ⟨zeros, hzeros⟩ := unsigned_eq_some_iff.1 h
      exact ⟨['+'], zeros, by simp, congrArg ('+' :: ·) hzeros⟩
    next =>
      obtain ⟨zeros, hzeros⟩ := unsigned_eq_some_iff.1 h
      exact ⟨[], zeros, by simp, hzeros⟩
  · rintro ⟨sign, zeros, hsign, rfl⟩
    have hread := unsigned_eq_some_iff.2 ⟨zeros, Eq.refl (_ ++ Nat.toDigits 10 n)⟩
    simp only [List.mem_cons, List.not_mem_nil, or_false] at hsign
    rcases hsign with rfl | rfl
    · rw [List.nil_append]
      unfold natural?
      split
      next rest heq =>
        have hplus := isDigit_of_mem_zeros_toDigits '+' (heq ▸ List.mem_cons_self ..)
        exact absurd hplus (by decide)
      next => exact hread
    · exact hread

end Text

namespace Binary64

def value (x : Binary64) : ℚ :=
  (if x.negative then -1 else 1) * (x.mantissa * 2 ^ x.exponent)

theorem ratio_pos (x : Binary64) : 0 < x.ratio.2 := by
  unfold ratio
  split
  next => exact Nat.one_pos
  next => exact Nat.pow_pos (by decide)

theorem value_ratio (x : Binary64) :
    (x.ratio.1 : ℚ) / x.ratio.2 = x.mantissa * 2 ^ x.exponent := by
  unfold ratio
  split
  next h =>
    obtain ⟨k, hk⟩ := Int.eq_ofNat_of_zero_le h
    simp [hk]
  next h =>
    obtain ⟨k, hk⟩ : ∃ k : Nat, x.exponent = -k := ⟨(-x.exponent).toNat, by omega⟩
    simp [hk, div_eq_mul_inv]

theorem toInt?_eq (x : Binary64) : x.toInt? =
    if x.ratio.1 % x.ratio.2 = 0 then
      some (if x.negative then -((x.ratio.1 / x.ratio.2 : Nat) : Int)
        else (x.ratio.1 / x.ratio.2 : Nat))
    else none := rfl

theorem toInt?_eq_some_iff {x : Binary64} {n : Int} : x.toInt? = some n ↔ x.value = n := by
  have hpos := x.ratio_pos
  rw [toInt?_eq, value, ← value_ratio]
  generalize x.ratio = r at hpos ⊢
  have hden : (r.2 : ℚ) ≠ 0 := by exact_mod_cast hpos.ne'
  constructor
  · intro h
    obtain ⟨hdvd, hn⟩ := Option.ite_none_right_eq_some.1 h
    obtain ⟨k, hk⟩ := Nat.dvd_of_mod_eq_zero hdvd
    rw [hk, Nat.mul_div_cancel_left k hpos] at hn
    rw [hk, Nat.cast_mul, mul_div_cancel_left₀ _ hden, ← Option.some.inj hn]
    split <;> simp
  · intro h
    have habs : (r.1 : ℚ) / r.2 = n.natAbs := by
      rw [Nat.cast_natAbs, Int.cast_abs, ← h, abs_mul, abs_div]
      split <;> simp
    have hnum : r.1 = n.natAbs * r.2 := by exact_mod_cast (div_eq_iff hden).1 habs
    rw [habs] at h
    rw [hnum, Nat.mul_mod_left, if_pos rfl, Nat.mul_div_cancel _ hpos, Option.some_inj]
    apply Int.cast_injective (α := ℚ)
    rw [← h]
    split <;> simp

end Binary64

namespace Amount

/-- The amount is the number `n`, by its value or by its digits. -/
def Means : Amount → Nat → Prop
  | .number x, n => x.value = n
  | .text s, n => Text.IsNumeral (Text.trim s.toList) n

def IsPositiveInteger (amount : Amount) : Prop :=
  ∃ n, 0 < n ∧ amount.Means n

/-- The number is spelt out and does not fit into 64 bits. -/
def Overlong : Amount → Prop
  | .number _ => False
  | .text s => ∃ n, UInt64.size ≤ n ∧ Text.IsNumeral (Text.trim s.toList) n

def Accepted (amount : Amount) : Prop :=
  amount.IsPositiveInteger ∧ ¬ amount.Overlong

theorem Overlong.isPositiveInteger {amount : Amount} (h : amount.Overlong) :
    amount.IsPositiveInteger := by
  cases amount with
  | number x => exact h.elim
  | text s =>
      obtain ⟨n, hn, hnumeral⟩ := h
      exact ⟨n, Nat.lt_of_lt_of_le (by decide) hn, hnumeral⟩

theorem isPositiveInteger_number_iff {x : Binary64} :
    (number x).IsPositiveInteger ↔ ∃ n ∈ x.toInt?, 0 < n := by
  constructor
  · rintro ⟨n, hn, hvalue⟩
    exact ⟨n, Binary64.toInt?_eq_some_iff.2 (hvalue.trans (Int.cast_natCast n).symm), by omega⟩
  · rintro ⟨n, hint, hn⟩
    obtain ⟨k, rfl⟩ := Int.eq_ofNat_of_zero_le hn.le
    exact ⟨k, by omega, (Binary64.toInt?_eq_some_iff.1 hint).trans (Int.cast_natCast k)⟩

theorem isPositiveInteger_text_iff {s : String} : (text s).IsPositiveInteger ↔
    ∃ n ∈ Text.natural? (Text.trim s.toList), 0 < n :=
  exists_congr fun _ => and_comm.trans (and_congr_left' Text.natural?_eq_some_iff.symm)

theorem overlong_text_iff {s : String} : (text s).Overlong ↔
    ∃ n ∈ Text.natural? (Text.trim s.toList), UInt64.size ≤ n :=
  exists_congr fun _ => and_comm.trans (and_congr_left' Text.natural?_eq_some_iff.symm)

instance decidableIsPositiveInteger : DecidablePred IsPositiveInteger
  | .number _ => decidable_of_iff _ isPositiveInteger_number_iff.symm
  | .text _ => decidable_of_iff _ isPositiveInteger_text_iff.symm

instance decidableOverlong : DecidablePred Overlong
  | .number _ => instDecidableFalse
  | .text _ => decidable_of_iff _ overlong_text_iff.symm

instance decidableAccepted : DecidablePred Accepted := fun amount =>
  inferInstanceAs (Decidable (amount.IsPositiveInteger ∧ ¬ amount.Overlong))

theorem isSome_positive?_iff {amount : Amount} : amount.positive?.isSome ↔ amount.Accepted := by
  unfold Accepted
  cases amount with
  | number x =>
      rw [isPositiveInteger_number_iff, positive?]
      cases x.toInt? with
      | none => simp
      | some n =>
          have hone : 1 ≤ n ↔ 0 < n := Iff.rfl
          by_cases hn : 0 < n <;> simp [hone, hn, Overlong]
  | text s =>
      rw [isPositiveInteger_text_iff, overlong_text_iff, positive?, Text.naturalBelow?]
      cases Text.natural? (Text.trim s.toList) with
      | none => simp
      | some n =>
          by_cases hn : 0 < n <;> by_cases hsize : n < UInt64.size <;> simp [hn, hsize]

example : Accepted (.number ⟨false, 2 ^ 52, 12⟩) ∧ ¬ Accepted (.text "18446744073709551616") := by
  decide +kernel

end Amount

end Devcontainer
