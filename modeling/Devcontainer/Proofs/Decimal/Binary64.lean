import Devcontainer.Decimal.Binary64
import Mathlib.Algebra.Order.Field.Power
import Mathlib.Tactic.FieldSimp
import Mathlib.Tactic.Linarith
import Mathlib.Tactic.Positivity
import Mathlib.Tactic.Ring

/-!
# Rounding to a double

A fraction is rounded by its value alone, so fractions of one value come to one double, and the
fraction of a double in normal form comes to that double again.
-/

namespace Devcontainer.Binary64

/-- The form in which each finite double is written once. -/
structure Normal (x : Binary64) : Prop where
  mantissa_lt : x.mantissa < 2 ^ 53
  full : leastExponent < x.exponent → 2 ^ 52 ≤ x.mantissa
  least_le : leastExponent ≤ x.exponent
  le_greatest : x.exponent ≤ greatestExponent

/-! ## Rounding to a whole number -/

theorem roundDiv_mul_mul {k : Nat} (hk : 0 < k) (num den : Nat) :
    roundDiv (k * num) (k * den) = roundDiv num den := by
  have hlt : k * den < 2 * (k * (num % den)) ↔ den < 2 * (num % den) := by
    rw [Nat.mul_left_comm, Nat.mul_lt_mul_left hk]
  have heq : k * den = 2 * (k * (num % den)) ↔ den = 2 * (num % den) := by
    rw [Nat.mul_left_comm, Nat.mul_right_inj hk.ne']
  simp only [roundDiv, Nat.mul_div_mul_left _ _ hk, Nat.mul_mod_mul_left, hlt, heq]

theorem roundDiv_congr {num den num' den' : Nat} (hden : 0 < den) (hden' : 0 < den')
    (h : (num : ℚ) / den = num' / den') : roundDiv num den = roundDiv num' den' := by
  have hcross : den' * num = den * num' := by
    rw [div_eq_div_iff (by positivity) (by positivity)] at h
    have hnat : num * den' = num' * den := by exact_mod_cast h
    rw [Nat.mul_comm, hnat, Nat.mul_comm]
  calc roundDiv num den = roundDiv (den' * num) (den' * den) := (roundDiv_mul_mul hden' _ _).symm
    _ = roundDiv (den * num') (den * den') := by rw [hcross, Nat.mul_comm den']
    _ = roundDiv num' den' := roundDiv_mul_mul hden _ _

theorem roundDiv_one (n : Nat) : roundDiv n 1 = n := by
  simp [roundDiv, Nat.mod_one]

theorem roundDiv_of_eq {num den n : Nat} (hden : 0 < den) (h : (num : ℚ) / den = n) :
    roundDiv num den = n := by
  have hone : (num : ℚ) / den = n / (1 : Nat) := by
    rw [h, Nat.cast_one, div_one]
  rw [roundDiv_congr hden Nat.one_pos hone, roundDiv_one]

theorem le_roundDiv {num den n : Nat} (hden : 0 < den) (h : (n : ℚ) ≤ num / den) :
    n ≤ roundDiv num den := by
  have hmul : n * den ≤ num := by
    rw [le_div_iff₀ (by positivity)] at h
    exact_mod_cast h
  have hdiv : n ≤ num / den := (Nat.le_div_iff_mul_le hden).2 hmul
  simp only [roundDiv]
  split <;> omega

theorem roundDiv_le {num den n : Nat} (hden : 0 < den) (h : (num : ℚ) / den < n) :
    roundDiv num den ≤ n := by
  have hmul : num < n * den := by
    rw [div_lt_iff₀ (by positivity)] at h
    exact_mod_cast h
  have hdiv : num / den < n := (Nat.div_lt_iff_lt_mul hden).2 hmul
  simp only [roundDiv]
  split <;> omega

/-! ## The mantissa at an exponent -/

theorem exists_scaledMantissa (num : Nat) {den : Nat} (hden : 0 < den) (e : Int) :
    ∃ num' den', 0 < den' ∧ scaledMantissa num den e = roundDiv num' den' ∧
      (num' : ℚ) / den' = num / den / 2 ^ e := by
  unfold scaledMantissa
  split
  next he =>
    lift e to Nat using he
    refine ⟨num, den * 2 ^ e, by positivity, rfl, ?_⟩
    push_cast
    rw [zpow_natCast, div_div]
  next he =>
    obtain ⟨n, rfl⟩ : ∃ n : Nat, e = -n := ⟨(-e).toNat, by omega⟩
    refine ⟨num * 2 ^ n, den, hden, by simp, ?_⟩
    push_cast
    rw [zpow_neg, zpow_natCast, div_inv_eq_mul, div_mul_eq_mul_div]

theorem scaledMantissa_congr {num den num' den' : Nat} (hden : 0 < den) (hden' : 0 < den')
    (h : (num : ℚ) / den = num' / den') (e : Int) :
    scaledMantissa num den e = scaledMantissa num' den' e := by
  obtain ⟨n, d, hd, hround, hvalue⟩ := exists_scaledMantissa num hden e
  obtain ⟨n', d', hd', hround', hvalue'⟩ := exists_scaledMantissa num' hden' e
  rw [hround, hround', roundDiv_congr hd hd' (by rw [hvalue, hvalue', h])]

theorem scaledMantissa_of_eq {num den m : Nat} (hden : 0 < den) {e : Int}
    (h : (num : ℚ) / den = m * 2 ^ e) : scaledMantissa num den e = m := by
  obtain ⟨n, d, hd, hround, hvalue⟩ := exists_scaledMantissa num hden e
  rw [hround]
  apply roundDiv_of_eq hd
  rw [hvalue, h, mul_div_cancel_right₀ _ (by positivity)]

/-! ## The exponent of a fraction -/

/-- At its exponent a value has a mantissa of 53 bits, or of fewer at the least exponent. -/
structure IsExponent (q : ℚ) (e : Int) : Prop where
  least_le : leastExponent ≤ e
  lt : q < 2 ^ (53 + e)
  le : leastExponent < e → 2 ^ (52 + e) ≤ q

theorem IsExponent.le_of_isExponent {q : ℚ} {e e' : Int} (h : IsExponent q e)
    (h' : IsExponent q e') : e ≤ e' := by
  by_contra hlt
  have hfull : (2 : ℚ) ^ (52 + e) ≤ q := h.le (by have := h'.least_le; omega)
  have hpow : (2 : ℚ) ^ (53 + e') ≤ 2 ^ (52 + e) := zpow_le_zpow_right₀ (by norm_num) (by omega)
  exact absurd h'.lt (not_lt.2 (hpow.trans hfull))

theorem IsExponent.unique {q : ℚ} {e e' : Int} (h : IsExponent q e) (h' : IsExponent q e') :
    e = e' :=
  le_antisymm (h.le_of_isExponent h') (h'.le_of_isExponent h)

theorem lt_pow_iff (num : Nat) {den : Nat} (hden : 0 < den) (e : Int) :
    (if 0 ≤ e then num < Nat.pow 2 52 * (den * Nat.pow 2 e.toNat)
      else num * Nat.pow 2 (-e).toNat < Nat.pow 2 52 * den) ↔ (num : ℚ) / den < 2 ^ (52 + e) := by
  have hden' : (0 : ℚ) < den := by exact_mod_cast hden
  rw [div_lt_iff₀ hden', zpow_add₀ (by norm_num)]
  split
  next he =>
    lift e to Nat using he
    rw [zpow_natCast, ← Nat.cast_lt (α := ℚ)]
    simp only [Nat.pow_eq, Int.toNat_natCast]
    push_cast
    rw [mul_right_comm, mul_assoc]
  next he =>
    obtain ⟨n, rfl⟩ : ∃ n : Nat, e = -n := ⟨(-e).toNat, by omega⟩
    have hpow : (0 : ℚ) < 2 ^ n := by positivity
    rw [zpow_neg, zpow_natCast, ← Nat.cast_lt (α := ℚ)]
    simp only [Nat.pow_eq, neg_neg, Int.toNat_natCast]
    push_cast
    rw [mul_right_comm, ← div_eq_mul_inv, lt_div_iff₀ hpow]

theorem div_lt_pow_log2 (num : Nat) {den : Nat} (hden : 0 < den) :
    (num : ℚ) / den < 2 ^ ((num.log2 : Int) - den.log2 + 1) := by
  have hnum : (num : ℚ) < 2 ^ (num.log2 + 1) := by exact_mod_cast Nat.lt_log2_self
  have hlog : (2 : ℚ) ^ den.log2 ≤ den := by exact_mod_cast Nat.log2_self_le hden.ne'
  have hden' : (0 : ℚ) < den := by exact_mod_cast hden
  rw [div_lt_iff₀ hden']
  calc (num : ℚ) < 2 ^ (num.log2 + 1) := hnum
    _ = 2 ^ ((num.log2 : Int) - den.log2 + 1) * 2 ^ den.log2 := by
        rw [← zpow_natCast, ← zpow_natCast, ← zpow_add₀ (by norm_num)]
        congr 1
        push_cast
        ring
    _ ≤ 2 ^ ((num.log2 : Int) - den.log2 + 1) * den := by gcongr

theorem pow_log2_le_div {num den : Nat} (hnum : 0 < num) (hden : 0 < den) :
    (2 : ℚ) ^ ((num.log2 : Int) - den.log2 - 1) ≤ num / den := by
  have hlog : (2 : ℚ) ^ num.log2 ≤ num := by exact_mod_cast Nat.log2_self_le hnum.ne'
  have hlt : (den : ℚ) ≤ 2 ^ (den.log2 + 1) := by exact_mod_cast Nat.lt_log2_self.le
  have hden' : (0 : ℚ) < den := by exact_mod_cast hden
  rw [le_div_iff₀ hden']
  calc (2 : ℚ) ^ ((num.log2 : Int) - den.log2 - 1) * den
      ≤ 2 ^ ((num.log2 : Int) - den.log2 - 1) * 2 ^ (den.log2 + 1) := by gcongr
    _ = 2 ^ num.log2 := by
        rw [← zpow_natCast, ← zpow_natCast, ← zpow_add₀ (by norm_num)]
        congr 1
        push_cast
        ring
    _ ≤ num := hlog

theorem isExponent_exponentOf {num den : Nat} (hnum : 0 < num) (hden : 0 < den) :
    IsExponent ((num : ℚ) / den) (exponentOf num den) := by
  have hupper := div_lt_pow_log2 num hden
  have hlower := pow_log2_le_div hnum hden
  -- the guess is right or too great by one
  obtain ⟨e, he, hlt, hle⟩ : ∃ e, exponentOf num den = max leastExponent e ∧
      (num : ℚ) / den < 2 ^ (53 + e) ∧ (2 : ℚ) ^ (52 + e) ≤ num / den := by
    set guess : Int := (num.log2 : Int) - den.log2 - 52 with hguess
    by_cases hfull : (num : ℚ) / den < 2 ^ (52 + guess)
    · refine ⟨guess - 1, ?_, ?_, ?_⟩
      · have hdef := (lt_pow_iff num hden guess).2 hfull
        rw [exponentOf]
        simp only [← hguess]
        rw [if_pos hdef]
      · rwa [show (53 : Int) + (guess - 1) = 52 + guess by ring]
      · rwa [show (52 : Int) + (guess - 1) = (num.log2 : Int) - den.log2 - 1 by omega]
    · refine ⟨guess, ?_, ?_, not_lt.1 hfull⟩
      · have hdef := mt (lt_pow_iff num hden guess).1 hfull
        rw [exponentOf]
        simp only [← hguess]
        rw [if_neg hdef]
      · rwa [show (53 : Int) + guess = (num.log2 : Int) - den.log2 + 1 by omega]
  rw [he]
  refine ⟨le_max_left _ _, ?_, fun hleast => ?_⟩
  · have hle : e ≤ max leastExponent e := le_max_right _ _
    exact hlt.trans_le (zpow_le_zpow_right₀ (by norm_num) (by omega))
  · rwa [max_eq_right (by omega)]

/-! ## Rounding a fraction -/

/-- A mantissa that has been rounded up to 54 bits moves one bit into the exponent. -/
def carried (mantissa : Nat) (exponent : Int) : Nat × Int :=
  if mantissa = 2 ^ 53 then (2 ^ 52, exponent + 1) else (mantissa, exponent)

def finite? (negative : Bool) (p : Nat × Int) : Option Binary64 :=
  if p.2 ≤ greatestExponent then some ⟨negative, p.1, p.2⟩ else none

theorem ofRatio?_of_ne_zero (negative : Bool) {num : Nat} (hnum : num ≠ 0) (den : Nat) :
    ofRatio? negative num den = finite? negative
      (carried (scaledMantissa num den (exponentOf num den)) (exponentOf num den)) := by
  rw [ofRatio?, if_neg hnum]
  rfl

theorem ofRatio?_congr (negative : Bool) {num den num' den' : Nat} (hden : 0 < den)
    (hden' : 0 < den') (h : (num : ℚ) / den = num' / den') :
    ofRatio? negative num den = ofRatio? negative num' den' := by
  have hzero : num = 0 ↔ num' = 0 := by
    have hvalue : (num : ℚ) / den = 0 ↔ (num' : ℚ) / den' = 0 := by rw [h]
    have hd : den ≠ 0 := hden.ne'
    have hd' : den' ≠ 0 := hden'.ne'
    simpa [hd, hd'] using hvalue
  by_cases hnum : num = 0
  · rw [ofRatio?, ofRatio?, if_pos hnum, if_pos (hzero.1 hnum)]
  · have hnum' : num' ≠ 0 := mt hzero.2 hnum
    have hexp : exponentOf num den = exponentOf num' den' :=
      (isExponent_exponentOf (Nat.pos_of_ne_zero hnum) hden).unique
        (h ▸ isExponent_exponentOf (Nat.pos_of_ne_zero hnum') hden')
    rw [ofRatio?_of_ne_zero negative hnum, ofRatio?_of_ne_zero negative hnum', hexp,
      scaledMantissa_congr hden hden' h]

theorem ofRatio?_of_eq {x : Binary64} (hx : x.Normal) {num den : Nat} (hden : 0 < den)
    (h : (num : ℚ) / den = x.mantissa * 2 ^ x.exponent) :
    ofRatio? x.negative num den = some x := by
  have hpow : (0 : ℚ) < 2 ^ x.exponent := by positivity
  by_cases hnum : num = 0
  · have hmantissa : x.mantissa = 0 := by
      rw [hnum, Nat.cast_zero, zero_div, eq_comm, mul_eq_zero, Nat.cast_eq_zero] at h
      exact h.resolve_right hpow.ne'
    have hexponent : x.exponent = leastExponent := by
      by_contra hne
      have := hx.full (lt_of_le_of_ne hx.least_le (Ne.symm hne))
      omega
    rw [ofRatio?, if_pos hnum, zero, ← hmantissa, ← hexponent]
  · have hexponent : IsExponent ((num : ℚ) / den) x.exponent := by
      refine ⟨hx.least_le, ?_, fun hleast => ?_⟩
      · rw [h, zpow_add₀ (by norm_num)]
        have := hx.mantissa_lt
        gcongr
        exact_mod_cast this
      · rw [h, zpow_add₀ (by norm_num)]
        have := hx.full hleast
        gcongr
        exact_mod_cast this
    have he : exponentOf num den = x.exponent :=
      (isExponent_exponentOf (Nat.pos_of_ne_zero hnum) hden).unique hexponent
    have hm : scaledMantissa num den x.exponent = x.mantissa := scaledMantissa_of_eq hden h
    rw [ofRatio?_of_ne_zero x.negative hnum, he, hm, carried, if_neg hx.mantissa_lt.ne, finite?,
      if_pos hx.le_greatest]

theorem scaledMantissa_bounds {num den : Nat} (hden : 0 < den) {e : Int}
    (h : IsExponent ((num : ℚ) / den) e) :
    scaledMantissa num den e ≤ 2 ^ 53 ∧ (leastExponent < e → 2 ^ 52 ≤ scaledMantissa num den e) := by
  obtain ⟨n, d, hd, hround, hvalue⟩ := exists_scaledMantissa num hden e
  have hpow : (0 : ℚ) < 2 ^ e := by positivity
  rw [hround]
  constructor
  · apply roundDiv_le hd
    rw [hvalue, div_lt_iff₀ hpow]
    have hlt := h.lt
    rw [zpow_add₀ (by norm_num)] at hlt
    exact_mod_cast hlt
  · intro hleast
    apply le_roundDiv hd
    rw [hvalue, le_div_iff₀ hpow]
    have hle := h.le hleast
    rw [zpow_add₀ (by norm_num)] at hle
    exact_mod_cast hle

theorem normal_zero (negative : Bool) : (zero negative).Normal where
  mantissa_lt := Nat.two_pow_pos 53
  full h := absurd h (lt_irrefl _)
  least_le := le_refl _
  le_greatest := by decide +revert

theorem normal_of_ofRatio? {negative : Bool} {num den : Nat} (hden : 0 < den) {x : Binary64}
    (h : ofRatio? negative num den = some x) : x.Normal := by
  by_cases hnum : num = 0
  · rw [ofRatio?, if_pos hnum] at h
    exact Option.some.inj h ▸ normal_zero negative
  · have hexp := isExponent_exponentOf (Nat.pos_of_ne_zero hnum) hden
    obtain ⟨hle, hfull⟩ := scaledMantissa_bounds hden hexp
    have hleast := hexp.least_le
    rw [ofRatio?_of_ne_zero negative hnum] at h
    obtain ⟨hgreatest, hx⟩ := Option.ite_none_right_eq_some.1 h
    obtain rfl := Option.some.inj hx
    unfold carried at hgreatest ⊢
    split at hgreatest
    next hm =>
      rw [if_pos hm]
      exact ⟨by norm_num, fun _ => le_refl _, by simp only; omega, hgreatest⟩
    next hm =>
      rw [if_neg hm]
      exact ⟨lt_of_le_of_ne hle hm, hfull, hleast, hgreatest⟩

theorem normal_of_ofDecimal? {negative : Bool} {significand : Nat} {power : Int} {x : Binary64}
    (h : ofDecimal? negative significand power = some x) : x.Normal := by
  unfold ofDecimal? at h
  simp only at h
  split at h
  next =>
    obtain rfl := Option.some.inj h
    exact normal_zero negative
  next =>
    split at h
    next => cases h
    next =>
      split at h
      · exact normal_of_ofRatio? Nat.one_pos h
      · exact normal_of_ofRatio? (Nat.pow_pos (by decide)) h

theorem normal_of_ofInt? {n : Int} {x : Binary64} (h : ofInt? n = some x) : x.Normal :=
  normal_of_ofRatio? Nat.one_pos h

end Devcontainer.Binary64
