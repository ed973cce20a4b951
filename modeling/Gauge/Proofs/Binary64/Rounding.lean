import Mathlib

/-!
# Rounding to binary64

The numbers of binary64 are the multiples of powers of two by at most 53 bits; the powers are bounded
from below.  An operation answers a number of the format that is nearest to the exact result.  All
that is used of an operation further on follows from this: its sign, its order against numbers of the
format, and how far it is off.

The range of the format is left open above.  What does not overflow is a matter of each operation.

## Main definitions

* `Representable` — a number of the format.
* `Rounds` — a number of the format that is nearest to a real number.

## Main statements

* `rounds_of_multiple` — the nearest multiple of the right power of two is nearest in the format.
* `Rounds.eq`, `Rounds.le_of_le`, `Rounds.ge_of_ge` — rounding keeps the numbers of the format, and
  their order against all others.
* `Rounds.error_le` — the error is at most half a unit in the last place.
-/

namespace Gauge

/-- A number of binary64, with no bound above. -/
def Representable (y : ℝ) : Prop :=
  ∃ m e : ℤ, |m| ≤ 2 ^ 53 ∧ -1074 ≤ e ∧ y = m * (2 : ℝ) ^ e

/-- A number of the format that is nearest to `r`. -/
structure Rounds (r y : ℝ) : Prop where
  representable : Representable y
  nearest : ∀ z, Representable z → |y - r| ≤ |z - r|

variable {r y z : ℝ}

/-! ## Numbers of the format -/

theorem two_zpow_pos (e : ℤ) : (0 : ℝ) < 2 ^ e := zpow_pos two_pos e

namespace Representable

theorem intCast {m : ℤ} (h : |m| ≤ 2 ^ 53) : Representable m :=
  ⟨m, 0, h, by norm_num, by simp⟩

theorem zero : Representable 0 := by
  exact_mod_cast intCast (m := 0) (by norm_num)

theorem neg (h : Representable y) : Representable (-y) := by
  obtain ⟨m, e, hm, he, rfl⟩ := h
  exact ⟨-m, e, by rwa [abs_neg], he, by push_cast; ring⟩

theorem two_zpow {e : ℤ} (he : -1074 ≤ e) : Representable (2 ^ e) :=
  ⟨1, e, by norm_num, he, by simp⟩

/-- Every number of the format is a multiple of the smallest one. -/
theorem exists_multiple (h : Representable y) : ∃ n : ℤ, y = n * (2 : ℝ) ^ (-1074 : ℤ) := by
  obtain ⟨m, e, -, he, rfl⟩ := h
  refine ⟨m * 2 ^ (e + 1074).toNat, ?_⟩
  have hexponent : e = ((e + 1074).toNat : ℤ) + (-1074) := by omega
  conv_lhs => rw [hexponent, zpow_add₀ two_ne_zero, zpow_natCast]
  push_cast
  ring

/-- A small multiple of the smallest number of the format is in the format. -/
theorem of_multiple {n : ℤ} (h : |n| ≤ 2 ^ 53) : Representable (n * (2 : ℝ) ^ (-1074 : ℤ)) :=
  ⟨n, -1074, h, le_rfl, rfl⟩

end Representable

/-! ## Nearest numbers -/

/-- Two different multiples of a number are at least as far apart as the number. -/
theorem le_abs_sub_of_multiples {a b : ℤ} {unit : ℝ} (hunit : 0 < unit)
    (h : (a : ℝ) * unit ≠ b * unit) : unit ≤ |(a : ℝ) * unit - b * unit| := by
  have hne : a ≠ b := fun hab => h (by rw [hab])
  have hone : (1 : ℝ) ≤ |(a : ℝ) - b| := by
    exact_mod_cast Int.one_le_abs (sub_ne_zero.2 hne)
  rw [← sub_mul, abs_mul, abs_of_pos hunit]
  exact le_mul_of_one_le_left hunit.le hone

/-- A multiple that is at most half a unit away is the nearest one. -/
theorem abs_sub_le_of_multiples {a b : ℤ} {unit : ℝ} (hunit : 0 < unit)
    (h : |a * unit - r| ≤ unit / 2) : |a * unit - r| ≤ |b * unit - r| := by
  by_cases hab : (a : ℝ) * unit = b * unit
  · rw [hab]
  · have hfar := le_abs_sub_of_multiples hunit hab
    have htriangle := abs_sub_le ((a : ℝ) * unit) r (b * unit)
    rw [abs_sub_comm r] at htriangle
    linarith

/-- **The nearest multiple of the right power of two is nearest in the format.**  The power is right
if the number has 53 bits above it, or if there is no smaller one. -/
theorem rounds_of_multiple {k t : ℤ} (hk : |k| ≤ 2 ^ 53) (ht : -1074 ≤ t)
    (hnear : |k * (2 : ℝ) ^ t - r| ≤ 2 ^ t / 2)
    (hbits : 2 ^ 52 * (2 : ℝ) ^ t ≤ |r| ∨ t = -1074) : Rounds r (k * 2 ^ t) := by
  refine ⟨⟨k, t, hk, ht, rfl⟩, ?_⟩
  rintro z ⟨m, e, hm, he, rfl⟩
  have hunit := two_zpow_pos t
  by_cases hte : t ≤ e
  · have hsplit : (m : ℝ) * 2 ^ e = ((m * 2 ^ (e - t).toNat : ℤ) : ℝ) * 2 ^ t := by
      have hexponent : e = ((e - t).toNat : ℤ) + t := by omega
      conv_lhs => rw [hexponent, zpow_add₀ two_ne_zero, zpow_natCast]
      push_cast
      ring
    rw [hsplit]
    exact abs_sub_le_of_multiples hunit hnear
  -- the other number is on a finer grid, and so below the first number with all 53 bits
  · have hlarge : 2 ^ 52 * (2 : ℝ) ^ t ≤ |r| := hbits.resolve_right (by omega)
    have hsmall : |(m : ℝ) * 2 ^ e| ≤ 2 ^ 52 * 2 ^ t := by
      have hpow : (2 : ℝ) ^ e ≤ 2 ^ (t - 1) := zpow_le_zpow_right₀ one_le_two (by omega)
      have hmantissa : |(m : ℝ)| ≤ 2 ^ 53 := by exact_mod_cast hm
      calc |(m : ℝ) * 2 ^ e| = |(m : ℝ)| * 2 ^ e := by rw [abs_mul, abs_of_pos (two_zpow_pos e)]
        _ ≤ 2 ^ 53 * 2 ^ (t - 1) := by gcongr
        _ = 2 ^ 52 * 2 ^ t := by
          rw [zpow_sub_one₀ two_ne_zero]
          ring
    have hbelow := (abs_le.1 hsmall)
    rcases le_abs.1 hlarge with hr | hr
    · have hpower := abs_sub_le_of_multiples (b := 2 ^ 52) hunit hnear
      push_cast at hpower
      refine hpower.trans ?_
      rw [abs_sub_comm, abs_of_nonneg (by linarith), abs_sub_comm, abs_of_nonneg (by linarith)]
      linarith
    · have hpower := abs_sub_le_of_multiples (b := -2 ^ 52) hunit hnear
      push_cast at hpower
      refine hpower.trans ?_
      rw [abs_of_nonneg (by linarith), abs_of_nonneg (by linarith)]
      linarith

namespace Rounds

theorem neg (h : Rounds r y) : Rounds (-r) (-y) := by
  refine ⟨h.representable.neg, fun z hz => ?_⟩
  calc |-y - -r| = |y - r| := by rw [← abs_neg, neg_sub', neg_neg, neg_neg]
    _ ≤ |-z - r| := h.nearest (-z) hz.neg
    _ = |z - -r| := by rw [← abs_neg, neg_sub', neg_neg]

/-- A number of the format is its own rounding. -/
theorem eq (h : Rounds r y) (hr : Representable r) : y = r := by
  have hle := h.nearest r hr
  rw [sub_self, abs_zero] at hle
  exact sub_eq_zero.1 (abs_nonpos_iff.1 hle)

theorem of_representable (h : Representable r) : Rounds r r := by
  refine ⟨h, fun z _ => ?_⟩
  rw [sub_self, abs_zero]
  exact abs_nonneg _

/-- Rounding does not pass a number of the format from below. -/
theorem le_of_le (h : Rounds r y) (hz : Representable z) (hle : r ≤ z) : y ≤ z := by
  by_contra hlt
  have hnear := h.nearest z hz
  rw [abs_of_nonneg (by linarith), abs_of_nonneg (by linarith)] at hnear
  linarith

/-- Rounding does not pass a number of the format from above. -/
theorem ge_of_ge (h : Rounds r y) (hz : Representable z) (hle : z ≤ r) : z ≤ y := by
  have hneg := h.neg.le_of_le hz.neg (neg_le_neg hle)
  linarith

theorem nonneg (h : Rounds r y) (hr : 0 ≤ r) : 0 ≤ y := h.ge_of_ge .zero hr

theorem nonpos (h : Rounds r y) (hr : r ≤ 0) : y ≤ 0 := h.le_of_le .zero hr

end Rounds

/-! ## The error -/

/-- Near every number there is one of the format. -/
theorem exists_representable_near (r : ℝ) :
    ∃ z, Representable z ∧ |z - r| ≤ |r| / 2 ^ 53 + 2 ^ (-1075 : ℤ) := by
  by_cases hr : r = 0
  · refine ⟨0, .zero, ?_⟩
    rw [hr]
    simp
  have hpos : 0 < |r| := abs_pos.2 hr
  set bits : ℤ := Int.log 2 |r|
  set e : ℤ := max (bits - 52) (-1074) with he
  have hunit := two_zpow_pos e
  have hround : |(round (r / 2 ^ e) : ℝ) - r / 2 ^ e| ≤ 1 / 2 := by
    rw [abs_sub_comm]
    exact abs_sub_round _
  have hbelow : |r / 2 ^ e| < 2 ^ 53 := by
    rw [abs_div, abs_of_pos hunit, div_lt_iff₀ hunit, ← zpow_natCast, ← zpow_add₀ two_ne_zero]
    refine (Int.lt_zpow_succ_log_self one_lt_two |r|).trans_le ?_
    exact zpow_le_zpow_right₀ one_le_two (by omega)
  refine ⟨round (r / 2 ^ e) * 2 ^ e, ⟨_, e, ?_, by omega, rfl⟩, ?_⟩
  · have htriangle := abs_sub_abs_le_abs_sub (round (r / 2 ^ e) : ℝ) (r / 2 ^ e)
    have hlt : |(round (r / 2 ^ e) : ℝ)| < 2 ^ 53 + 1 := by linarith
    have hlt' : |round (r / 2 ^ e)| < 2 ^ 53 + 1 := by exact_mod_cast hlt
    omega
  · have herror : |(round (r / 2 ^ e) : ℝ) * 2 ^ e - r| ≤ 2 ^ e / 2 := by
      have hscaled : (round (r / 2 ^ e) : ℝ) * 2 ^ e - r =
          (round (r / 2 ^ e) - r / 2 ^ e) * 2 ^ e := by
        rw [sub_mul, div_mul_cancel₀ _ hunit.ne']
      rw [hscaled, abs_mul, abs_of_pos hunit]
      linarith [mul_le_mul_of_nonneg_right hround hunit.le]
    refine herror.trans ?_
    have hsmallest := two_zpow_pos (-1075)
    rcases max_choice (bits - 52) (-1074) with hmax | hmax
    · have hlog : (2 : ℝ) ^ bits ≤ |r| := Int.zpow_log_le_self one_lt_two hpos
      have hhalf : (2 : ℝ) ^ e / 2 = 2 ^ bits / 2 ^ 53 := by
        rw [he, hmax, zpow_sub₀ two_ne_zero]
        norm_num
        ring
      rw [hhalf]
      have hdiv : (2 : ℝ) ^ bits / 2 ^ 53 ≤ |r| / 2 ^ 53 := by gcongr
      linarith
    · have hhalf : (2 : ℝ) ^ e / 2 = 2 ^ (-1075 : ℤ) := by
        rw [he, hmax, show (-1075 : ℤ) = -1074 - 1 from rfl, zpow_sub_one₀ two_ne_zero]
        rfl
      rw [hhalf]
      have hdiv : 0 ≤ |r| / 2 ^ 53 := by positivity
      linarith

/-- **The error of a rounding**: half a unit in the last place, which below the normal numbers is half
of the smallest number. -/
theorem Rounds.error_le (h : Rounds r y) : |y - r| ≤ |r| / 2 ^ 53 + 2 ^ (-1075 : ℤ) := by
  obtain ⟨z, hz, hnear⟩ := exists_representable_near r
  exact (h.nearest z hz).trans hnear

end Gauge
