import Devcontainer.Decimal.Shortest
import Devcontainer.Proofs.Decimal.Binary64
import Mathlib.Data.Nat.Digits.Lemmas

/-!
# Shortest decimals read back

Where the search for a shortest decimal finds one, it has been read back. The exact decimal of a
double lies within the places that are tried, so something is found, and zeros that are dropped at
the end of the digits change nothing.
-/

namespace Devcontainer.Binary64

/-! ## Reading a decimal -/

/-- The place of the first digit, counted from the point. -/
def decimalSize (significand : Nat) (power : Int) : Int :=
  (Nat.toDigits 10 significand).length + power

def decimalFraction (significand : Nat) (power : Int) : Nat × Nat :=
  if 0 ≤ power then (significand * 10 ^ power.toNat, 1) else (significand, 10 ^ (-power).toNat)

theorem ofDecimal?_eq (negative : Bool) (significand : Nat) (power : Int) :
    ofDecimal? negative significand power =
      if significand = 0 ∨ decimalSize significand power < -330 then some (zero negative)
      else if 330 < decimalSize significand power then none
      else ofRatio? negative (decimalFraction significand power).1
        (decimalFraction significand power).2 := by
  unfold ofDecimal? decimalSize decimalFraction
  by_cases h : 0 ≤ power <;> simp [h]

theorem decimalFraction_pos (significand : Nat) (power : Int) :
    0 < (decimalFraction significand power).2 := by
  unfold decimalFraction
  split <;> positivity

theorem value_decimalFraction (significand : Nat) (power : Int) :
    ((decimalFraction significand power).1 : ℚ) / (decimalFraction significand power).2 =
      significand * 10 ^ power := by
  unfold decimalFraction
  split
  next h =>
    lift power to Nat using h
    simp
  next h =>
    obtain ⟨n, rfl⟩ : ∃ n : Nat, power = -n := ⟨(-power).toNat, by omega⟩
    simp [div_eq_mul_inv]

theorem ofDecimal?_of_eq {x : Binary64} (hx : x.Normal) {significand : Nat} {power : Int}
    (hlow : -330 ≤ decimalSize significand power) (hhigh : decimalSize significand power ≤ 330)
    (hne : significand ≠ 0) (h : (significand : ℚ) * 10 ^ power = x.mantissa * 2 ^ x.exponent) :
    ofDecimal? x.negative significand power = some x := by
  rw [ofDecimal?_eq, if_neg (by omega), if_neg (by omega)]
  exact ofRatio?_of_eq hx (decimalFraction_pos _ _) ((value_decimalFraction _ _).trans h)

theorem length_toDigits_mul_ten {n : Nat} (hn : 0 < n) :
    (Nat.toDigits 10 (n * 10)).length = (Nat.toDigits 10 n).length + 1 := by
  have happend : Nat.toDigits 10 n ++ Nat.toDigits 10 0 = Nat.toDigits 10 (10 * n + 0) :=
    Nat.toDigits_append_toDigits (by decide) hn (by decide)
  rw [Nat.mul_comm, ← Nat.add_zero (10 * n), ← happend, List.length_append, Nat.toDigits_zero]
  rfl

theorem ofDecimal?_mul_ten (negative : Bool) (significand : Nat) (power : Int) :
    ofDecimal? negative (significand * 10) power = ofDecimal? negative significand (power + 1) := by
  rw [ofDecimal?_eq, ofDecimal?_eq]
  by_cases hzero : significand = 0
  · rw [if_pos (by omega), if_pos (by omega)]
  · have hsize : decimalSize (significand * 10) power = decimalSize significand (power + 1) := by
      rw [decimalSize, decimalSize, length_toDigits_mul_ten (by omega)]
      push_cast
      ring
    have hvalue : ((significand * 10 : Nat) : ℚ) * 10 ^ power = significand * 10 ^ (power + 1) := by
      rw [zpow_add_one₀ (by norm_num)]
      push_cast
      ring
    rw [hsize, ofRatio?_congr negative (decimalFraction_pos _ _) (decimalFraction_pos _ _)
      ((value_decimalFraction _ _).trans (hvalue.trans (value_decimalFraction _ _).symm))]
    simp only [hzero, Nat.mul_eq_zero, Nat.reduceEqDiff, or_self]

theorem ofDecimal?_mul_pow (negative : Bool) (significand k : Nat) (power : Int) :
    ofDecimal? negative (significand * 10 ^ k) power =
      ofDecimal? negative significand (power + k) := by
  induction k generalizing power with
  | zero => simp
  | succ k ih =>
      rw [Nat.pow_succ, ← Nat.mul_assoc, ofDecimal?_mul_ten, ih]
      congr 1
      push_cast
      ring

theorem ofDecimal?_dropZeros (negative : Bool) (fuel : Nat) (d : Decimal) :
    ofDecimal? negative (dropZeros fuel d).digits (dropZeros fuel d).power =
      ofDecimal? negative d.digits d.power := by
  induction fuel generalizing d with
  | zero => rfl
  | succ fuel ih =>
      rw [dropZeros]
      split
      next h =>
        have hdigits : d.digits / 10 * 10 = d.digits := by omega
        rw [ih, ← ofDecimal?_mul_ten, hdigits]
      next => rfl

/-! ## One grid -/

def gridFraction (x : Binary64) (power : Int) : Nat × Nat :=
  if 0 ≤ power then (x.ratio.1, x.ratio.2 * 10 ^ power.toNat)
  else (x.ratio.1 * 10 ^ (-power).toNat, x.ratio.2)

theorem readsBackAs_iff {x : Binary64} {d : Decimal} :
    x.readsBackAs d = true ↔ ofDecimal? x.negative d.digits d.power = some x := by
  rw [readsBackAs, beq_iff_eq]

theorem onGrid?_eq (x : Binary64) (power : Int) :
    x.onGrid? power =
      let fraction := x.gridFraction power
      let below : Decimal := ⟨fraction.1 / fraction.2, power⟩
      let above : Decimal := ⟨fraction.1 / fraction.2 + 1, power⟩
      match x.readsBackAs below, x.readsBackAs above with
      | true, false => some below
      | false, true => some above
      | false, false => none
      | true, true =>
        some (if 2 * (fraction.1 % fraction.2) < fraction.2 ∨
          (2 * (fraction.1 % fraction.2) = fraction.2 ∧ below.digits % 2 = 0) then below
          else above) := rfl

theorem readsBackAs_of_onGrid? {x : Binary64} {power : Int} {d : Decimal}
    (h : x.onGrid? power = some d) : x.readsBackAs d = true := by
  rw [onGrid?_eq] at h
  generalize x.gridFraction power = fraction at h
  dsimp only at h
  split at h
  next hbelow _ => exact Option.some.inj h ▸ hbelow
  next _ habove => exact Option.some.inj h ▸ habove
  next => cases h
  next hbelow habove =>
    split at h
    · exact Option.some.inj h ▸ hbelow
    · exact Option.some.inj h ▸ habove

theorem onGrid?_ne_none {x : Binary64} {power : Int}
    (h : x.readsBackAs ⟨(x.gridFraction power).1 / (x.gridFraction power).2, power⟩ = true) :
    x.onGrid? power ≠ none := by
  rw [onGrid?_eq]
  dsimp only
  rw [h]
  cases x.readsBackAs ⟨(x.gridFraction power).1 / (x.gridFraction power).2 + 1, power⟩ <;> nofun

/-! ## The places that are tried -/

theorem leadingPower_lt {num den n k : Nat} (hnum : 0 < num) (hden : 0 < den)
    (h : num * 10 ^ k < den * 10 ^ n) : leadingPower num den < (n : Int) - k := by
  unfold leadingPower
  split
  next hle =>
    have hquotient : num / den * 10 ^ k < 10 ^ n := by
      apply Nat.lt_of_mul_lt_mul_left (a := den)
      calc den * (num / den * 10 ^ k) = den * (num / den) * 10 ^ k := by ring
        _ ≤ num * 10 ^ k := Nat.mul_le_mul_right _ (Nat.mul_div_le num den)
        _ < den * 10 ^ n := h
    have hone : 1 ≤ num / den := (Nat.one_le_div_iff hden).2 hle
    have hlt : k < n := by
      apply (Nat.pow_lt_pow_iff_right (a := 10) (by decide)).1
      exact lt_of_le_of_lt (Nat.le_mul_of_pos_left _ hone) hquotient
    have hlength : (Nat.toDigits 10 (num / den)).length ≤ n - k := by
      rw [Nat.length_toDigits_le_iff (by decide) (by omega)]
      apply Nat.lt_of_mul_lt_mul_right (a := 10 ^ k)
      rwa [← Nat.pow_add, Nat.sub_add_cancel hlt.le]
    omega
  next hlt =>
    have hpos : 0 < (Nat.toDigits 10 ((den - 1) / num)).length := Nat.length_toDigits_pos
    by_cases hkn : k ≤ n
    · omega
    · have hlength : ¬ (Nat.toDigits 10 ((den - 1) / num)).length ≤ k - n := by
        rw [Nat.length_toDigits_le_iff (by decide) (by omega), not_lt, Nat.le_div_iff_mul_le hnum]
        have hscaled : 10 ^ (k - n) * num < den := by
          apply Nat.lt_of_mul_lt_mul_right (a := 10 ^ n)
          calc 10 ^ (k - n) * num * 10 ^ n = num * (10 ^ (k - n) * 10 ^ n) := by ring
            _ = num * 10 ^ k := by rw [← Nat.pow_add, Nat.sub_add_cancel (by omega)]
            _ < den * 10 ^ n := h
        omega
      omega

theorem le_leadingPower {num den k : Nat} (hnum : 0 < num) (h : den ≤ 10 ^ k) :
    -(k : Int) ≤ leadingPower num den := by
  unfold leadingPower
  split
  next =>
    have hpos : 0 < (Nat.toDigits 10 (num / den)).length := Nat.length_toDigits_pos
    omega
  next hlt =>
    have hpos : 0 < k := by
      apply Nat.pos_of_ne_zero
      rintro rfl
      omega
    have hlength : (Nat.toDigits 10 ((den - 1) / num)).length ≤ k := by
      rw [Nat.length_toDigits_le_iff (by decide) hpos]
      exact lt_of_le_of_lt (Nat.div_le_self _ _) (by omega)
    omega

/-! ## The exact decimal -/

theorem ten_pow_le_five_pow {n : Nat} (h : n ≤ 743) : 10 ^ n ≤ 5 ^ (n + 331) := by
  have hpow : 2 ^ n ≤ 5 ^ 331 := (Nat.pow_le_pow_right (by decide) h).trans (by decide +kernel)
  calc 10 ^ n = 2 ^ n * 5 ^ n := Nat.mul_pow 2 5 n
    _ ≤ 5 ^ 331 * 5 ^ n := Nat.mul_le_mul_right _ hpow
    _ = 5 ^ (n + 331) := by rw [← Nat.pow_add, Nat.add_comm]

theorem decimalSize_exact {m n : Nat} (hm : 0 < m) (hlt : m < 2 ^ 53) (hn : n ≤ 1074) :
    -330 ≤ decimalSize (m * 5 ^ n) (-n) ∧ decimalSize (m * 5 ^ n) (-n) ≤ 330 := by
  unfold decimalSize
  constructor
  · by_cases hsmall : n ≤ 330
    · omega
    · have hlength : ¬ (Nat.toDigits 10 (m * 5 ^ n)).length ≤ n - 331 := by
        rcases Nat.eq_zero_or_pos (n - 331) with hzero | hpos
        · have := Nat.length_toDigits_pos (b := 10) (n := m * 5 ^ n)
          omega
        · rw [Nat.length_toDigits_le_iff (by decide) hpos, not_lt]
          calc 10 ^ (n - 331) ≤ 5 ^ (n - 331 + 331) := ten_pow_le_five_pow (by omega)
            _ = 5 ^ n := by rw [Nat.sub_add_cancel (by omega)]
            _ ≤ m * 5 ^ n := Nat.le_mul_of_pos_left _ hm
      omega
  · have hlength : (Nat.toDigits 10 (m * 5 ^ n)).length ≤ 330 + n := by
      rw [Nat.length_toDigits_le_iff (by decide) (by omega), Nat.pow_add]
      apply Nat.mul_lt_mul_of_lt_of_le
      · exact hlt.trans (by decide +kernel)
      · exact Nat.pow_le_pow_left (by decide) n
      · positivity
    omega

theorem value_exact (m n : Nat) :
    ((m * 5 ^ n : Nat) : ℚ) * 10 ^ (-n : Int) = m * 2 ^ (-n : Int) := by
  have hten : (10 : ℚ) ^ n = 2 ^ n * 5 ^ n := by
    rw [← mul_pow]
    norm_num
  rw [zpow_neg, zpow_neg, zpow_natCast, zpow_natCast, hten]
  push_cast
  field_simp

/-- Below the point every bit of a double needs one more decimal place, and no double has more than
1074 bits there. -/
theorem isSome_search {x : Binary64} (hx : x.Normal) (hm : 0 < x.mantissa) {n : Nat}
    (hn : x.exponent = -n) (hpos : 0 < n) :
    ((List.range 800).findSome? fun (places : Nat) =>
      x.onGrid? (leadingPower x.ratio.1 x.ratio.2 - places)).isSome = true := by
  have hratio : x.ratio = (x.mantissa, 2 ^ n) := by
    rw [ratio, if_neg (by omega), hn]
    simp
  have hbound : n ≤ 1074 := by
    have := hx.least_le
    rw [hn, leastExponent] at this
    omega
  obtain ⟨hlow, hhigh⟩ := decimalSize_exact hm hx.mantissa_lt hbound
  have hreads : x.readsBackAs ⟨x.mantissa * 5 ^ n, -n⟩ = true := by
    rw [readsBackAs_iff]
    exact ofDecimal?_of_eq hx hlow hhigh (by positivity) (hn ▸ value_exact x.mantissa n)
  have hgrid : (x.gridFraction (-n)).1 / (x.gridFraction (-n)).2 = x.mantissa * 5 ^ n := by
    have hten : x.mantissa * 10 ^ n = x.mantissa * 5 ^ n * 2 ^ n := by
      rw [Nat.mul_assoc, ← Nat.mul_pow]
    rw [gridFraction, if_neg (by omega), hratio]
    simp only [neg_neg, Int.toNat_natCast, hten]
    exact Nat.mul_div_cancel _ (by positivity)
  have hlead : -(n : Int) ≤ leadingPower x.ratio.1 x.ratio.2 := by
    rw [hratio]
    exact le_leadingPower hm (Nat.pow_le_pow_left (by decide) n)
  have hplaces : leadingPower x.ratio.1 x.ratio.2 < (800 : Nat) - n := by
    rw [hratio]
    apply leadingPower_lt hm (by positivity)
    calc x.mantissa * 10 ^ n = 2 ^ n * (x.mantissa * 5 ^ n) := by
          rw [Nat.mul_left_comm, ← Nat.mul_pow]
      _ < 2 ^ n * 10 ^ 800 := by
          apply Nat.mul_lt_mul_of_pos_left _ (by positivity)
          calc x.mantissa * 5 ^ n ≤ 2 ^ 53 * 5 ^ 1074 :=
                Nat.mul_le_mul hx.mantissa_lt.le (Nat.pow_le_pow_right (by decide) hbound)
            _ < 10 ^ 800 := by decide +kernel
  rw [List.findSome?_isSome_iff]
  refine ⟨(leadingPower x.ratio.1 x.ratio.2 + n).toNat, List.mem_range.2 (by omega), ?_⟩
  have hpower : leadingPower x.ratio.1 x.ratio.2 - (leadingPower x.ratio.1 x.ratio.2 + n).toNat =
      -n := by omega
  rw [hpower, Option.isSome_iff_ne_none]
  exact onGrid?_ne_none (by rwa [hgrid])

/-- A double without bits below the point is a number of at most 309 digits. -/
theorem ofDecimal?_whole {x : Binary64} (hx : x.Normal) (hm : 0 < x.mantissa)
    (he : 0 ≤ x.exponent) : ofDecimal? x.negative x.ratio.1 0 = some x := by
  obtain ⟨n, hn⟩ := Int.eq_ofNat_of_zero_le he
  have hratio : x.ratio = (x.mantissa * 2 ^ n, 1) := by
    rw [ratio, if_pos he, hn]
    simp
  have hbound : n ≤ 971 := by
    have := hx.le_greatest
    rw [hn, greatestExponent] at this
    omega
  have hlength : (Nat.toDigits 10 (x.mantissa * 2 ^ n)).length ≤ 330 := by
    rw [Nat.length_toDigits_le_iff (by decide) (by decide)]
    calc x.mantissa * 2 ^ n ≤ 2 ^ 53 * 2 ^ 971 :=
          Nat.mul_le_mul hx.mantissa_lt.le (Nat.pow_le_pow_right (by decide) hbound)
      _ < 10 ^ 330 := by decide +kernel
  have hsize : decimalSize (x.mantissa * 2 ^ n) 0 = (Nat.toDigits 10 (x.mantissa * 2 ^ n)).length :=
    Int.add_zero _
  rw [hratio]
  apply ofDecimal?_of_eq hx
  · rw [hsize]
    omega
  · rw [hsize]
    omega
  · positivity
  · simp [hn]

theorem ofDecimal?_shortest {x : Binary64} (hx : x.Normal) :
    ofDecimal? x.negative x.shortest.digits x.shortest.power = some x := by
  unfold shortest
  split
  next hm =>
    have hexponent : x.exponent = leastExponent := by
      by_contra hne
      have := hx.full (lt_of_le_of_ne hx.least_le (Ne.symm hne))
      omega
    rw [ofDecimal?_eq, if_pos (Or.inl rfl), zero, ← hm, ← hexponent]
  next hm =>
    dsimp only
    rw [ofDecimal?_dropZeros]
    cases hfound : (List.range 800).findSome? fun (places : Nat) =>
        x.onGrid? (leadingPower x.ratio.1 x.ratio.2 - places) with
    | some d =>
        obtain ⟨places, -, hgrid⟩ := List.exists_of_findSome?_eq_some hfound
        exact readsBackAs_iff.1 (readsBackAs_of_onGrid? hgrid)
    | none =>
        refine ofDecimal?_whole hx (Nat.pos_of_ne_zero hm) ?_
        by_contra hneg
        have hsome := isSome_search hx (Nat.pos_of_ne_zero hm) (n := (-x.exponent).toNat)
          (by omega) (by omega)
        rw [hfound] at hsome
        cases hsome

end Devcontainer.Binary64
