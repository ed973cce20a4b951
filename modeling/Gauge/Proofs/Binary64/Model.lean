import Gauge.Proofs.Binary64.Rounding

/-!
# The arithmetic of floats rounds

The operations on floats are given by a model: a float is unpacked into a sign, a mantissa and an
exponent, the operation is computed there with two more bits, shifted into the format, and packed
again.  The two bits say how the exact result lies to the shifted mantissa, and a shift keeps what
they say.  So each operation answers a number of the format that is nearest to the exact result.

## Main definitions

* `unpackedValue` — the number that an unpacked float stands for.
* `Describes` — what a mantissa and its two residual bits say of a number.
* `Canonical` — an unpacked float in the form that packing expects.

## Main statements

* `describes_shiftRight` — a shift keeps what is said of a number.
* `rounds_roundWithAccuracy` — the rounding step of the model rounds.
-/

namespace Gauge

open Float.Model Float.Model.UnpackedFloat

/-! ## Values -/

def signed (s : Sign) (r : ℝ) : ℝ :=
  match s with
  | .negative => -r
  | .positive => r

/-- The number that an unpacked float stands for, and zero for what is no number. -/
noncomputable def unpackedValue : UnpackedFloat → ℝ
  | .finite s m e _ => signed s (m * (2 : ℕ) ^ e)
  | _ => 0

theorem value_zero (s : Sign) : unpackedValue (.zero s) = 0 := rfl

theorem value_finite (s : Sign) (m : ℕ) (e : ℤ) (hm : 0 < m) :
    unpackedValue (.finite s m e hm) = signed s (m * 2 ^ e) := rfl

theorem signed_zero (s : Sign) : signed s 0 = 0 := by
  cases s <;> simp [signed]

theorem abs_signed (s : Sign) (r : ℝ) : |signed s r| = |r| := by
  cases s <;> simp [signed]

theorem signed_mul (s₁ s₂ : Sign) (a b : ℝ) :
    signed s₁ a * signed s₂ b = signed (s₁ * s₂) (a * b) := by
  cases s₁ <;> cases s₂
  · exact neg_mul_neg a b
  · exact neg_mul a b
  · exact mul_neg a b
  · rfl

theorem signed_div (s₁ s₂ : Sign) (a b : ℝ) :
    signed s₁ a / signed s₂ b = signed (s₁ / s₂) (a / b) := by
  cases s₁ <;> cases s₂
  · exact neg_div_neg_eq a b
  · exact neg_div b a
  · exact div_neg a
  · rfl

theorem Rounds.signed {r y : ℝ} (h : Rounds r y) (s : Sign) :
    Rounds (Gauge.signed s r) (Gauge.signed s y) := by
  cases s with
  | negative => exact h.neg
  | positive => exact h

/-! ## Residual bits -/

/-- What a mantissa and its residual bits say of a number: it is the mantissa, or is closer to it than
to the next one, is as close to both, or is closer to the next one. -/
def Describes (em : ExtendedMantissa) (ρ : ℝ) : Prop :=
  match em with
  | ⟨m, false, false⟩ => ρ = m
  | ⟨m, false, true⟩ => m < ρ ∧ ρ - m < m + 1 - ρ
  | ⟨m, true, false⟩ => ρ - m = m + 1 - ρ
  | ⟨m, true, true⟩ => m + 1 - ρ < ρ - m ∧ ρ < m + 1

variable {em : ExtendedMantissa} {ρ : ℝ}

theorem Describes.bounds (h : Describes em ρ) : em.mantissa ≤ ρ ∧ ρ < em.mantissa + 1 := by
  obtain ⟨m, round, sticky⟩ := em
  cases round <;> cases sticky <;> simp only [Describes] at h ⊢ <;> constructor <;> linarith

/-- Rounding to the nearest mantissa is off by at most a half. -/
theorem Describes.rounded (h : Describes em ρ) : |(em.roundedMantissa : ℝ) - ρ| ≤ 1 / 2 := by
  obtain ⟨m, round, sticky⟩ := em
  rw [abs_le]
  cases round <;> cases sticky <;>
    simp only [Describes, ExtendedMantissa.roundedMantissa, ExtendedMantissa.accuracy,
      Accuracy.roundToNearestEven] at h ⊢
  · constructor <;> linarith
  · constructor <;> linarith
  · have hparity : m % 2 = 0 ∨ m % 2 = 1 := by omega
    rcases hparity with hparity | hparity <;> rw [hparity] <;> push_cast <;> constructor <;> linarith
  · push_cast
    constructor <;> linarith

/-- A shift by one bit keeps what is said of a number. -/
theorem describes_shiftRightOne (h : Describes em ρ) : Describes em.shiftRightOne (ρ / 2) := by
  obtain ⟨m, round, sticky⟩ := em
  obtain ⟨q, rfl | rfl⟩ : ∃ q, m = 2 * q ∨ m = 2 * q + 1 := ⟨m / 2, by omega⟩
  · have hhalf : 2 * q / 2 = q := by omega
    have hbit : 2 * q % 2 = 0 := by omega
    cases round <;> cases sticky <;>
      simp only [Describes, ExtendedMantissa.shiftRightOne, hhalf, hbit] at h ⊢ <;>
      push_cast at h ⊢ <;> simp only [Bool.or_self, Bool.or_true, Bool.or_false] <;>
      first
        | linarith
        | exact ⟨by linarith, by linarith⟩
  · have hhalf : (2 * q + 1) / 2 = q := by omega
    have hbit : (2 * q + 1) % 2 = 1 := by omega
    cases round <;> cases sticky <;>
      simp only [Describes, ExtendedMantissa.shiftRightOne, hhalf, hbit] at h ⊢ <;>
      push_cast at h ⊢ <;> simp only [Bool.or_self, Bool.or_true, Bool.or_false] <;>
      first
        | linarith
        | exact ⟨by linarith, by linarith⟩

theorem shiftRight_succ (em : ExtendedMantissa) (k : ℕ) :
    em >>> (k + 1) = (em >>> k).shiftRightOne := rfl

/-- **A shift keeps what is said of a number.** -/
theorem describes_shiftRight (h : Describes em ρ) (k : ℕ) :
    Describes (em >>> k) (ρ / 2 ^ k) := by
  induction k with
  | zero =>
    rw [pow_zero, div_one]
    exact h
  | succ k ih =>
    rw [shiftRight_succ, pow_succ, ← div_div]
    exact describes_shiftRightOne ih

/-! ## The format -/

/-- The exponent that a magnitude gets in the format. -/
theorem targetExponent_eq (m : ℕ) (e : ℤ) :
    Format.binary64.targetExponent (totalExponent m e) = max ((m.log2 : ℤ) + e - 52) (-1074) := by
  simp only [Format.targetExponent, totalExponent, Format.mantissaBits, Format.minExponent]
  norm_num
  omega

/-- An unpacked float in the form that packing expects: a mantissa of 53 bits, or of fewer with the
smallest exponent. -/
def Canonical : UnpackedFloat → Prop
  | .finite _ m e _ => m < 2 ^ 53 ∧ -1074 ≤ e ∧ (2 ^ 52 ≤ m ∨ e = -1074)
  | .zero _ => True
  | _ => False

variable {m : ℕ} {e : ℤ} {accuracy : Accuracy}

theorem mantissa_ofMantissaAndAccuracy (m : ℕ) (accuracy : Accuracy) :
    (ExtendedMantissa.ofMantissaAndAccuracy m accuracy).mantissa = m := by
  cases accuracy with
  | exact => rfl
  | inexact order => cases order <;> rfl

theorem describes_exact (m : ℕ) : Describes (.ofMantissaAndAccuracy m .exact) m := rfl

theorem describes_below (hlow : m < ρ) (hhigh : ρ < m + 1 / 2) :
    Describes (.ofMantissaAndAccuracy m (.inexact .lt)) ρ :=
  ⟨hlow, by linarith⟩

theorem describes_half (h : ρ = m + 1 / 2) :
    Describes (.ofMantissaAndAccuracy m (.inexact .eq)) ρ := by
  change ρ - m = m + 1 - ρ
  linarith

theorem describes_above (hlow : m + 1 / 2 < ρ) (hhigh : ρ < m + 1) :
    Describes (.ofMantissaAndAccuracy m (.inexact .gt)) ρ :=
  ⟨by linarith, hhigh⟩

/-- The first shift: it drops bits until 53 are left, or to the smallest exponent. -/
theorem describes_shiftToTargetExponent (h : Describes (.ofMantissaAndAccuracy m accuracy) ρ)
    (hbits : 52 ≤ m.log2 ∨ e ≤ -1074) :
    ∃ ρ', Describes (shiftToTargetExponent .binary64 m e accuracy).1 ρ' ∧
      ρ' * 2 ^ (shiftToTargetExponent .binary64 m e accuracy).2 = ρ * 2 ^ e ∧
      -1074 ≤ (shiftToTargetExponent .binary64 m e accuracy).2 ∧ ρ' < 2 ^ 53 ∧
      (2 ^ 52 ≤ ρ' ∨ (shiftToTargetExponent .binary64 m e accuracy).2 = -1074) := by
  obtain ⟨hlow, hhigh⟩ := h.bounds
  rw [mantissa_ofMantissaAndAccuracy] at hlow hhigh
  rw [shiftToTargetExponent, targetExponent_eq, shiftToExponent]
  generalize hk : (max ((m.log2 : ℤ) + e - 52) (-1074) - e).toNat = k
  have hpow : (0 : ℝ) < 2 ^ k := pow_pos two_pos k
  refine ⟨ρ / 2 ^ k, describes_shiftRight h k, ?_, by simp only; omega, ?_, ?_⟩
  · rw [zpow_add₀ two_ne_zero, zpow_natCast]
    field_simp
  · have hlog : m + 1 ≤ 2 ^ (53 + k) :=
      (Nat.succ_le_of_lt Nat.lt_log2_self).trans (Nat.pow_le_pow_right two_pos (by omega))
    have hlog' : (m : ℝ) + 1 ≤ 2 ^ 53 * 2 ^ k := by
      rw [← pow_add]
      exact_mod_cast hlog
    rw [div_lt_iff₀ hpow]
    linarith
  · by_cases hmin : e + (k : ℤ) = -1074
    · exact .inr hmin
    · left
      have hlog : m.log2 = 52 + k := by omega
      have hm : m ≠ 0 := by
        rintro rfl
        rw [Nat.log2_zero] at hlog
        omega
      have hpower : 2 ^ (52 + k) ≤ m := hlog ▸ Nat.log2_self_le hm
      have hpower' : (2 : ℝ) ^ 52 * 2 ^ k ≤ m := by
        rw [← pow_add]
        exact_mod_cast hpower
      rw [le_div_iff₀ hpow]
      linarith

/-- The second shift has nothing to do if 53 bits are enough. -/
theorem shiftToTargetExponent_of_lt (hm : m < 2 ^ 53) (he : -1074 ≤ e) :
    shiftToTargetExponent .binary64 m e .exact = (⟨m, false, false⟩, e) := by
  have hlog : m.log2 ≤ 52 := by
    by_cases hzero : m = 0
    · simp [hzero]
    · exact Nat.le_of_lt_succ ((Nat.log2_lt hzero).2 hm)
  have hshift : (max ((m.log2 : ℤ) + e - 52) (-1074) - e).toNat = 0 := by omega
  rw [shiftToTargetExponent, targetExponent_eq, shiftToExponent, hshift]
  simp only [Nat.cast_zero, add_zero]
  rfl

/-- Where rounding made a 54th bit, the second shift drops a zero. -/
theorem shiftToTargetExponent_of_eq (he : -1074 ≤ e) :
    shiftToTargetExponent .binary64 (2 ^ 53) e .exact = (⟨2 ^ 52, false, false⟩, e + 1) := by
  have hshift : (max (((2 ^ 53 : ℕ).log2 : ℤ) + e - 52) (-1074) - e).toNat = 1 := by
    rw [Nat.log2_two_pow]
    omega
  rw [shiftToTargetExponent, targetExponent_eq, shiftToExponent, hshift]
  rfl

/-- **The rounding step of the model rounds**, to a float in canonical form. -/
theorem rounds_roundWithAccuracy (s : Sign)
    (h : Describes (.ofMantissaAndAccuracy m accuracy) ρ) (hbits : 52 ≤ m.log2 ∨ e ≤ -1074) :
    Canonical (roundWithAccuracy .binary64 s m e accuracy) ∧
      Rounds (signed s (ρ * 2 ^ e))
        (unpackedValue (roundWithAccuracy .binary64 s m e accuracy)) := by
  obtain ⟨ρ', hdescribes, hvalue, hmin, hbelow, hfull⟩ := describes_shiftToTargetExponent h hbits
  rw [← hvalue]
  rw [roundWithAccuracy]
  generalize shiftToTargetExponent .binary64 m e accuracy = first at *
  obtain ⟨em, e₁⟩ := first
  simp only at hdescribes hmin hfull ⊢
  have hnear := hdescribes.rounded
  have hnonneg : 0 ≤ ρ' := (Nat.cast_nonneg em.mantissa).trans hdescribes.bounds.1
  generalize em.roundedMantissa = r at *
  have hunit := two_zpow_pos e₁
  obtain ⟨hleft, hright⟩ := abs_le.1 hnear
  have hr : r ≤ 2 ^ 53 := by
    have hlt : (r : ℝ) < 2 ^ 53 + 1 := by linarith
    have hlt' : r < 2 ^ 53 + 1 := by exact_mod_cast hlt
    omega
  have hrounds : Rounds (ρ' * 2 ^ e₁) (r * 2 ^ e₁) := by
    have hrounds := rounds_of_multiple (k := r) (t := e₁) (r := ρ' * 2 ^ e₁)
      (by rw [Nat.abs_cast]; exact_mod_cast hr) hmin ?_ ?_
    · exact_mod_cast hrounds
    · rw [Int.cast_natCast, ← sub_mul, abs_mul, abs_of_pos hunit]
      linarith [mul_le_mul_of_nonneg_right hnear hunit.le]
    · refine hfull.imp_left fun hfull => ?_
      rw [abs_of_nonneg (mul_nonneg hnonneg hunit.le)]
      exact mul_le_mul_of_nonneg_right hfull hunit.le
  have hcanonical : 2 ^ 52 ≤ r ∨ e₁ = -1074 := by
    refine hfull.imp_left fun hfull => ?_
    have hlt : (2 : ℝ) ^ 52 < r + 1 := by linarith
    have hlt' : 2 ^ 52 < r + 1 := by exact_mod_cast hlt
    omega
  rcases hr.eq_or_lt with rfl | hlt
  · have hvalue : ((2 ^ 53 : ℕ) : ℝ) * 2 ^ e₁ = ((2 ^ 52 : ℕ) : ℝ) * 2 ^ (e₁ + 1) := by
      rw [zpow_add_one₀ two_ne_zero]
      push_cast
      ring
    rw [hvalue] at hrounds
    rw [shiftToTargetExponent_of_eq hmin]
    refine ⟨⟨by norm_num, by omega, .inl le_rfl⟩, hrounds.signed s⟩
  · rw [shiftToTargetExponent_of_lt hlt hmin]
    by_cases hzero : r = 0
    · subst hzero
      rw [Nat.cast_zero, zero_mul] at hrounds
      have hsigned := hrounds.signed s
      rw [signed_zero] at hsigned
      exact ⟨trivial, hsigned⟩
    · simp only [dif_neg hzero]
      exact ⟨⟨hlt, hmin, hcanonical⟩, hrounds.signed s⟩

theorem decreaseExponent_value (m : ℕ) (e t : ℤ) :
    ((decreaseExponent m e t).1 : ℝ) * 2 ^ (decreaseExponent m e t).2 = m * 2 ^ e := by
  simp only [decreaseExponent]
  generalize (e - t).toNat = k
  rw [Nat.shiftLeft_eq, zpow_sub₀ two_ne_zero, zpow_natCast]
  push_cast
  field_simp

theorem log2_shiftLeft (hm : 0 < m) (k : ℕ) : (m <<< k).log2 = m.log2 + k := by
  rw [Nat.shiftLeft_eq, Nat.log2_eq_iff (by positivity)]
  constructor
  · rw [pow_add]
    exact Nat.mul_le_mul_right _ (Nat.log2_self_le hm.ne')
  · rw [add_right_comm, pow_add]
    exact Nat.mul_lt_mul_of_pos_right Nat.lt_log2_self (by positivity)

/-- A magnitude that may have too few bits gets zeros first. -/
theorem rounds_round (s : Sign) (hm : 0 < m) :
    Canonical (UnpackedFloat.round .binary64 s m e) ∧
      Rounds (signed s (m * 2 ^ e)) (unpackedValue (UnpackedFloat.round .binary64 s m e)) := by
  rw [← decreaseExponent_value m e (Format.binary64.targetExponent (totalExponent m e)),
    UnpackedFloat.round]
  refine rounds_roundWithAccuracy s (describes_exact _) ?_
  rw [targetExponent_eq]
  generalize hk : (e - max ((m.log2 : ℤ) + e - 52) (-1074)).toNat = k
  have hlog := log2_shiftLeft hm k
  omega

/-- A signed mantissa is rounded. -/
theorem rounds_normalize (n : ℤ) (e : ℤ) (s : Sign) :
    Canonical (UnpackedFloat.normalize .binary64 n e s) ∧
      Rounds (n * 2 ^ e) (unpackedValue (UnpackedFloat.normalize .binary64 n e s)) := by
  rw [UnpackedFloat.normalize]
  rcases lt_trichotomy n 0 with hn | rfl | hn
  · rw [Int.compare_eq_lt.2 hn]
    have hrounds := rounds_round (m := (-n).toNat) (e := e) .negative (by omega)
    have hcast : (((-n).toNat : ℕ) : ℝ) = -n := by
      exact_mod_cast Int.toNat_of_nonneg (neg_nonneg.2 hn.le)
    rwa [hcast, signed, neg_mul, neg_neg] at hrounds
  · refine ⟨trivial, ?_⟩
    rw [Int.cast_zero, zero_mul]
    exact .of_representable .zero
  · rw [Int.compare_eq_gt.2 hn]
    have hrounds := rounds_round (m := n.toNat) (e := e) .positive (by omega)
    have hcast : ((n.toNat : ℕ) : ℝ) = n := by
      exact_mod_cast Int.toNat_of_nonneg hn.le
    rwa [hcast, signed] at hrounds

end Gauge
