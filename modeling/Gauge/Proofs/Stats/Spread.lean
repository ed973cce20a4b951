import Gauge.Configuration
import Gauge.Proofs.Stats.Accuracy

/-!
# What a small relative standard deviation says of a series

A relative standard deviation is a quotient of floats.  Where the mean is positive and the quotient is
at most a threshold, the exact deviation of the series is at most the threshold times its exact mean,
up to a part of the largest value that rounding can hide.  A zero mean meets no threshold.  A negative
one meets them all: only zero is looked for before the division, and the sign of the mean is that of
the quotient.

## Main definitions

* `number` — the number that a float stands for.
* `Moments.average`, `Moments.deviation` — the exact mean and standard deviation of a series.
* `Moments.Within` — the deviation is at most a part of the mean, up to rounding.
* `Computed` — a mean and a variance that are computed of a series.

## Main statements

* `Computed.within` — a threshold that is met bounds the spread, unless the mean is negative.
* `Computed.le_of_negative` — a negative mean meets every threshold.
-/

namespace Gauge

/-- The number that a float stands for, and zero for what is no number. -/
noncomputable def number (x : Float) : ℝ := unpackedValue x.toModel.unpack

/-- A zero as it is written in comparisons. -/
theorem denotes_zeroLiteral : Denotes 0.0 0 where
  finite := by decide +kernel
  value := by
    have hunpack : (0.0 : Float).toModel.unpack = .zero .positive := by rfl
    rw [hunpack, value_zero]

/-- A valid threshold is a number, and not a negative one. -/
theorem denotes_of_thresholdOk {x : Float} (h : Configuration.thresholdOk x) :
    Denotes x (number x) ∧ 0 ≤ number x := by
  rw [Configuration.thresholdOk, Bool.and_eq_true, Bool.not_eq_true', decide_eq_false_iff_not] at h
  have hx : Denotes x (number x) := ⟨h.1, rfl⟩
  exact ⟨hx, not_lt.1 (mt (lt_iff_of_denotes hx denotes_zeroLiteral).2 h.2)⟩

namespace Moments

variable {vs : List Int64} {M τ : ℝ}

noncomputable def average (vs : List Int64) : ℝ := (meanOf vs : ℚ)

noncomputable def deviation (vs : List Int64) : ℝ := √(varianceAbout (meanOf vs) vs : ℚ)

/-- The largest magnitude of a value in a series. -/
def largest (vs : List Int64) : ℕ := vs.foldr (fun v k => Max.max v.toInt.natAbs k) 0

/-- What rounding can hide of a standard deviation: a part of the largest value that grows with the
length of the series.  For a million values and a threshold below one it is less than a thousandth
part. -/
noncomputable def slack (vs : List Int64) (τ : ℝ) : ℝ :=
  (√vs.length / (2 ^ 21 : ℕ) + τ * vs.length / (2 ^ 47 : ℕ)) * largest vs

theorem slack_eq (vs : List Int64) (τ : ℝ) :
    slack vs τ = (√vs.length / 2 ^ 21 + τ * vs.length / 2 ^ 47) * largest vs := by
  rw [slack, Nat.cast_pow, Nat.cast_pow, Nat.cast_ofNat]

/-- The standard deviation of a series is at most a part of the magnitude of its mean, up to what
rounding can hide of it. -/
def Within (vs : List Int64) (τ : ℝ) : Prop := deviation vs ≤ τ * |average vs| + slack vs τ

theorem natAbs_le_largest {v : Int64} (hv : v ∈ vs) : v.toInt.natAbs ≤ largest vs := by
  induction vs with
  | nil => cases hv
  | cons w vs ih =>
    rcases List.mem_cons.1 hv with rfl | hv
    · exact le_max_left _ _
    · exact (ih hv).trans (le_max_right _ _)

theorem abs_le_largest {v : Int64} (hv : v ∈ vs) : |(v.toInt : ℝ)| ≤ largest vs := by
  have hle := natAbs_le_largest hv
  rw [← Int.cast_abs, Int.abs_eq_natAbs]
  exact_mod_cast hle

theorem largest_le (vs : List Int64) : largest vs ≤ 2 ^ 63 := by
  induction vs with
  | nil => exact Nat.zero_le _
  | cons v vs ih =>
    have habs := abs_toInt_le v
    rw [Int.abs_eq_natAbs] at habs
    exact max_le (by exact_mod_cast habs) ih

/-! ## Bounds of a deviation -/

theorem squaresAbout_le {μ : ℚ} (hvs : ∀ v ∈ vs, |(v.toInt : ℝ)| ≤ M) (hμ : |(μ : ℝ)| ≤ M) :
    ((squaresAbout μ vs : ℚ) : ℝ) ≤ vs.length * (2 * M) ^ 2 := by
  induction vs using List.reverseRecOn with
  | nil => simp [squaresAbout_eq_sum]
  | append_singleton vs v ih =>
    have hinit := ih fun w hw => hvs w (List.mem_append_left _ hw)
    have hv := abs_distance_le (hvs v (List.mem_append_right _ (List.mem_singleton_self v))) hμ
    have hsquare : ((v.toInt : ℝ) - μ) * (v.toInt - μ) ≤ (2 * M) ^ 2 := by
      rw [← pow_two]
      exact sq_le_sq' (abs_le.1 hv).1 (abs_le.1 hv).2
    rw [squaresAbout_concat, List.length_append, List.length_singleton]
    push_cast
    rw [Scalar.cast_ofValue]
    linarith

/-- A deviation is at most three times the largest value. -/
theorem deviation_le (vs : List Int64) : deviation vs ≤ 3 * largest vs := by
  have hnonneg : (0 : ℝ) ≤ 3 * largest vs := by positivity
  rw [deviation, Real.sqrt_le_iff]
  refine ⟨hnonneg, ?_⟩
  by_cases hfew : vs.length < 2
  · rw [cast_varianceAbout_of_few hfew]
    positivity
  · obtain ⟨k, hk⟩ := Nat.exists_eq_add_of_le' (not_lt.1 hfew)
    have hne : vs ≠ [] := List.ne_nil_of_length_pos (by omega)
    have hvs : ∀ v ∈ vs, |(v.toInt : ℝ)| ≤ largest vs := fun v hv => abs_le_largest hv
    have hsquares := squaresAbout_le hvs (abs_meanOf_le hvs hne)
    rw [cast_varianceAbout hk, div_le_iff₀ (by positivity)]
    refine hsquares.trans ?_
    rw [hk]
    push_cast
    have hL : (0 : ℝ) ≤ (largest vs : ℝ) ^ 2 := by positivity
    have hkL : (0 : ℝ) ≤ k * (largest vs : ℝ) ^ 2 := by positivity
    linarith

theorem slack_nonneg (hτ : 0 ≤ τ) : 0 ≤ slack vs τ := by
  rw [slack_eq]
  positivity

/-- Nothing can be said of a series that is so long. -/
theorem within_of_long (hlong : 2 ^ 46 ≤ vs.length) (hτ : 0 ≤ τ) : Within vs τ := by
  have hroot : (2 : ℝ) ^ 23 ≤ √vs.length := by
    rw [Real.le_sqrt (by positivity) (Nat.cast_nonneg _), ← pow_mul]
    exact_mod_cast hlong
  have hlarge : (3 : ℝ) ≤ √vs.length / 2 ^ 21 + τ * vs.length / 2 ^ 47 := by
    have hpart : (2 : ℝ) ^ 23 / 2 ^ 21 ≤ √vs.length / 2 ^ 21 := by gcongr
    have hrest : 0 ≤ τ * vs.length / 2 ^ 47 := by positivity
    norm_num at hpart ⊢
    linarith
  have hthreshold : 0 ≤ τ * |average vs| := by positivity
  calc deviation vs ≤ 3 * largest vs := deviation_le vs
    _ ≤ slack vs τ := by
      rw [slack_eq]
      gcongr
    _ ≤ τ * |average vs| + slack vs τ := by linarith

/-- A series of zeros has no spread. -/
theorem within_of_zeros (hzeros : largest vs = 0) (hτ : 0 ≤ τ) : Within vs τ := by
  have hdeviation := deviation_le vs
  rw [hzeros, Nat.cast_zero, mul_zero] at hdeviation
  exact hdeviation.trans (add_nonneg (by positivity) (slack_nonneg hτ))

/-! ## The quotient of the deviation and the mean -/

/-- What a rounded quotient says of the numbers that are divided. -/
theorem le_of_quotient_le {d m c : ℝ} (hd : 0 ≤ d) (hm : 0 < m) (hc : Rounds (d / m) c)
    (hle : c ≤ τ) : d ≤ τ * m + (d / 2 ^ 53 + m * 2 ^ (-1075 : ℤ)) := by
  have hquotient : 0 ≤ d / m := by positivity
  have herror := (abs_le.1 hc.error_le).1
  rw [abs_of_nonneg hquotient] at herror
  have hle' : d / m ≤ τ + (d / m / 2 ^ 53 + 2 ^ (-1075 : ℤ)) := by linarith
  have hscaled := mul_le_mul_of_nonneg_right hle' hm.le
  have hcancel : d / m * m = d := div_mul_cancel₀ d hm.ne'
  calc d = d / m * m := hcancel.symm
    _ ≤ (τ + (d / m / 2 ^ 53 + 2 ^ (-1075 : ℤ))) * m := hscaled
    _ = τ * m + (d / m * m / 2 ^ 53 + m * 2 ^ (-1075 : ℤ)) := by ring
    _ = τ * m + (d / 2 ^ 53 + m * 2 ^ (-1075 : ℤ)) := by rw [hcancel]

variable {mean variance : Float}

/-- The deviation of floats is near the exact one. -/
theorem exists_deviation (hM : Bound M) (h : Accurate M vs mean variance) :
    ∃ d, Denotes variance.sqrt d ∧ 0 ≤ d ∧ d ≤ 10 * M ∧
      deviation vs ≤ d + 9 * lastBit M + 24 * √vs.length * (M / 2 ^ 26) := by
  obtain ⟨w, hw, hwnonneg, hwle, hvariance⟩ := h.variance
  obtain ⟨d, hd, hdenotes⟩ := denotes_sqrt hw hwnonneg
  have hone := hM.one_le
  have hlast := hM.lastBit_pos
  have hM52 := Bound.eq_lastBit M
  have hroot : √w ≤ 9 * M := by
    rw [Real.sqrt_le_iff]
    constructor <;> nlinarith
  have herror : |d - √w| ≤ 9 * lastBit M := by
    rw [← abs_of_nonneg (Real.sqrt_nonneg w)] at hroot
    exact hd.error_le_mul hroot (by norm_num) hone
  have hsum : deviation vs ≤ √w + 24 * √vs.length * (M / 2 ^ 26) := by
    have hlength := Real.sq_sqrt (vs.length.cast_nonneg : (0 : ℝ) ≤ vs.length)
    have hplaces : lastBit M * M = (M / 2 ^ 26) ^ 2 := by
      rw [lastBit_eq]
      ring
    have hwroot := Real.sq_sqrt hwnonneg
    have hunit : 0 ≤ M / 2 ^ 26 := div_nonneg hM.pos.le (by positivity)
    rw [deviation, Real.sqrt_le_iff]
    refine ⟨by positivity, hvariance.trans ?_⟩
    have hmixed : 0 ≤ √w * (24 * √vs.length * (M / 2 ^ 26)) := by positivity
    calc w + 576 * vs.length * (lastBit M * M)
        = √w ^ 2 + 576 * √vs.length ^ 2 * (M / 2 ^ 26) ^ 2 := by rw [hwroot, hlength, hplaces]
      _ ≤ (√w + 24 * √vs.length * (M / 2 ^ 26)) ^ 2 := by nlinarith
  refine ⟨d, hdenotes, hd.nonneg (Real.sqrt_nonneg w), ?_, ?_⟩ <;>
    rw [abs_le] at herror <;> linarith

/-- A quotient with a mean of floats that is positive is small where the deviation is. -/
theorem within_of_quotient_le {m d c : ℝ} (hL : Bound (largest vs)) (hne : vs ≠ []) (hτ : 0 ≤ τ)
    (hmean : |m - average vs| ≤ 18 * vs.length * lastBit (largest vs)) (hm : 0 < m)
    (hmle : m ≤ 2 * largest vs) (hd : 0 ≤ d) (hdle : d ≤ 10 * largest vs)
    (hdeviation : deviation vs ≤
      d + 9 * lastBit (largest vs) + 24 * √vs.length * (largest vs / 2 ^ 26))
    (hc : Rounds (d / m) c) (hle : c ≤ τ) : Within vs τ := by
  have hquotient := le_of_quotient_le hd hm hc hle
  have hone : (1 : ℝ) ≤ √vs.length := by
    rw [Real.one_le_sqrt]
    exact_mod_cast List.length_pos_of_ne_nil hne
  have hpos := hL.pos
  have hlast := hL.lastBit_pos
  have hL52 := Bound.eq_lastBit (largest vs : ℝ)
  have hτm : τ * m ≤ τ * |average vs| + τ * (18 * vs.length * lastBit (largest vs)) := by
    rw [← mul_add]
    refine mul_le_mul_of_nonneg_left ?_ hτ
    have hle := le_abs_self (average vs)
    linarith [(abs_le.1 hmean).2]
  have hsmallest : m * (2 : ℝ) ^ (-1075 : ℤ) ≤ lastBit (largest vs) := by
    have hpower : (2 : ℝ) ^ (-1075 : ℤ) ≤ 2 ^ (-53 : ℤ) :=
      zpow_le_zpow_right₀ one_le_two (by norm_num)
    calc m * (2 : ℝ) ^ (-1075 : ℤ) ≤ 2 * largest vs * 2 ^ (-53 : ℤ) := by gcongr
      _ = lastBit (largest vs) := by
        rw [lastBit_eq, zpow_neg, zpow_ofNat]
        ring
  have hplaces : 15 * lastBit (largest vs) ≤ 8 * √vs.length * (largest vs / 2 ^ 26) := by
    have hscaled := mul_le_mul_of_nonneg_right hone hpos.le
    rw [lastBit_eq]
    linarith
  have hthreshold : τ * (18 * vs.length * lastBit (largest vs)) ≤
      τ * vs.length / 2 ^ 47 * largest vs := by
    have hscaled : 0 ≤ τ * vs.length * largest vs := by positivity
    rw [lastBit_eq]
    linarith
  generalize m * (2 : ℝ) ^ (-1075 : ℤ) = smallest at *
  rw [Within, slack_eq]
  linarith

end Moments

/-! ## The test of convergence -/

/-- A mean and a variance that are computed of a series: by an accumulator, or in two passes. -/
inductive Computed (vs : List Int64) : Float → Float → Prop
  | accumulator :
      Computed vs (Running.ofSeries vs : Tally).mean (Running.ofSeries vs : Tally).variance
  | twoPasses {moments : Moments Float} (h : Moments.ofSeries? vs = some moments) :
      Computed vs moments.mean moments.variance

variable {mean variance stdDev T : Float} {m τ M : ℝ} {vs : List Int64}

theorem Computed.accurate (h : Computed vs mean variance) (hM : Bound M)
    (hvs : ∀ v ∈ vs, |(v.toInt : ℝ)| ≤ M) (hlength : vs.length ≤ 2 ^ 46) :
    Accurate M vs mean variance := by
  cases h with
  | accumulator => exact accurate_running hM hvs hlength
  | twoPasses h => exact accurate_ofSeries? hM hvs hlength h

/-- A mean that is not zero divides the deviation. -/
theorem relativeStdDev_of_ne_zero (hmean : Denotes mean m) (hm : m ≠ 0) :
    relativeStdDev mean stdDev = stdDev / mean := by
  rw [relativeStdDev, if_neg (mt (beq_iff_of_denotes hmean denotes_zeroLiteral).1 hm)]

/-- A mean of zero meets no threshold. -/
theorem ne_zero_of_le (hmean : Denotes mean m) (h : relativeStdDev mean stdDev ≤ T) : m ≠ 0 := by
  intro hm
  rw [relativeStdDev, if_pos ((beq_iff_of_denotes hmean denotes_zeroLiteral).2 hm)] at h
  have hnumber := isNaN_of_le h
  have hundefined : notANumber.isNaN = true := by decide +kernel
  rw [hundefined] at hnumber
  cases hnumber

/-- **A threshold that is met bounds the spread of the series**, unless the mean is negative. -/
theorem Computed.within (h : Computed vs mean variance) (hT : Denotes T τ) (hτ : 0 ≤ τ)
    (hle : relativeStdDev mean variance.sqrt ≤ T) (hsign : ¬ mean < 0.0) :
    Moments.Within vs τ := by
  by_cases hlong : 2 ^ 46 ≤ vs.length
  · exact Moments.within_of_long hlong hτ
  by_cases hzeros : Moments.largest vs = 0
  · exact Moments.within_of_zeros hzeros hτ
  have hL : Bound (Moments.largest vs) :=
    ⟨by exact_mod_cast Nat.one_le_iff_ne_zero.2 hzeros, by exact_mod_cast Moments.largest_le vs⟩
  have hne : vs ≠ [] := by
    rintro rfl
    exact hzeros rfl
  have haccurate := h.accurate hL (fun v hv => Moments.abs_le_largest hv) (by omega)
  obtain ⟨m, hm, hmean⟩ := haccurate.mean
  obtain ⟨d, hd, hdnonneg, hdle, hdeviation⟩ := Moments.exists_deviation hL haccurate
  have hnonneg : 0 ≤ m := not_lt.1 (mt (lt_iff_of_denotes hm denotes_zeroLiteral).2 hsign)
  have hnonzero := ne_zero_of_le hm hle
  have hmle := Running.abs_le_of_near hL haccurate.bounded hmean
    (by exact_mod_cast (not_le.1 hlong).le)
  rw [relativeStdDev_of_ne_zero hm hnonzero] at hle
  obtain ⟨c, hc, hquotient⟩ := div_le_iff_of_denotes hd hm hnonzero hT
  exact Moments.within_of_quotient_le hL hne hτ hmean (hnonneg.lt_of_ne' hnonzero)
    ((le_abs_self m).trans hmle) hdnonneg hdle hdeviation hc (hquotient.1 hle)

/-- **A negative mean meets every threshold**, however far the values are from it: the quotient is
not positive. -/
theorem Computed.le_of_negative (h : Computed vs mean variance) (hlength : vs.length ≤ 2 ^ 46)
    (hT : Denotes T τ) (hτ : 0 ≤ τ) (hsign : mean < 0.0) :
    relativeStdDev mean variance.sqrt ≤ T := by
  have hM : Bound (2 ^ 63) := ⟨one_le_pow₀ one_le_two, le_rfl⟩
  have haccurate := h.accurate hM (fun v _ => by exact_mod_cast abs_toInt_le v) hlength
  obtain ⟨m, hm, -⟩ := haccurate.mean
  obtain ⟨d, hd, hdnonneg, -, -⟩ := Moments.exists_deviation hM haccurate
  have hnegative := (lt_iff_of_denotes hm denotes_zeroLiteral).1 hsign
  obtain ⟨c, hc, hquotient⟩ := div_le_iff_of_denotes hd hm hnegative.ne hT
  rw [relativeStdDev_of_ne_zero hm hnegative.ne]
  exact hquotient.2 ((hc.nonpos (div_nonpos_of_nonneg_of_nonpos hdnonneg hnegative.le)).trans hτ)

end Gauge
