import Gauge.Proofs.Binary64.Comparison
import Gauge.Proofs.Stats.Welford
import Gauge.Stats.Summary

/-!
# How accurate the moments of a series are

The mean and the variance of a series in floats, by an accumulator or in two passes, against the exact
ones.  All numbers on the way are bounded by the largest value, so each operation is off by some of
its last bits, and after `n` values the mean is off by that many times `n`.

A variance can also be lost: the products that an accumulator adds up would cancel if they had
different signs.  They do not, as a mean moves towards a value and never beyond it, even rounded.  So
the squares are at least the exact ones, less some last bits of a square for each pair of values.

## Main definitions

* `Bound` — a bound of the values of a series.
* `lastBit` — what the rounding of a number of that size can change.
* `Running.Near` — an accumulator of floats that is near the exact one.
* `Accurate` — a mean and a variance of floats that are near those of a series.

## Main statements

* `same_side` — a value lies on the same side of the mean before and after the mean moved.
* `Running.near_push` — one more value keeps an accumulator of floats near the exact one.
* `accurate_running`, `accurate_ofSeries?` — both ways to the moments of a series are accurate.
-/

namespace Gauge

/-! ## Errors against a bound -/

variable {r y bound : ℝ}

/-- What the rounding of a number of some size can change. -/
noncomputable def lastBit (M : ℝ) : ℝ := M / (2 ^ 52 : ℕ)

theorem lastBit_eq (M : ℝ) : lastBit M = M / 2 ^ 52 := by
  rw [lastBit, Nat.cast_pow, Nat.cast_ofNat]

theorem lastBit_mul (a M : ℝ) : lastBit (a * M) = a * lastBit M := mul_div_assoc a M _

/-- The error of a rounding against a bound of what is rounded. -/
theorem Rounds.error_le_of_le (h : Rounds r y) (hbound : |r| ≤ bound) (hone : 1 ≤ bound) :
    |y - r| ≤ lastBit bound := by
  have hsmallest : (2 : ℝ) ^ (-1075 : ℤ) ≤ 1 / 2 ^ 53 := by
    calc (2 : ℝ) ^ (-1075 : ℤ) ≤ 2 ^ (-53 : ℤ) := zpow_le_zpow_right₀ one_le_two (by norm_num)
      _ = 1 / 2 ^ 53 := by rw [zpow_neg, zpow_ofNat, one_div]
  have herror := h.error_le
  have hle : |r| / 2 ^ 53 ≤ bound / 2 ^ 53 := by gcongr
  have hle' : (1 : ℝ) / 2 ^ 53 ≤ bound / 2 ^ 53 := by gcongr
  have hsplit : bound / 2 ^ 52 = bound / 2 ^ 53 + bound / 2 ^ 53 := by ring
  rw [lastBit_eq]
  linarith

theorem Rounds.error_le_mul {a M : ℝ} (h : Rounds r y) (hr : |r| ≤ a * M) (ha : 1 ≤ a)
    (hM : 1 ≤ M) : |y - r| ≤ a * lastBit M := by
  rw [← lastBit_mul]
  exact h.error_le_of_le hr (one_le_mul_of_one_le_of_one_le ha hM)

/-! ## The mean moves towards the value -/

/-- **A mean moves towards the value, and not beyond.**  The distance is rounded, and so is its part
by which the mean moves; but that is half of the distance at most, and rounding cannot double it. -/
theorem move_le {x m d q : ℝ} {k : ℕ} (hx : Representable x) (hm : Representable m) (hk : 2 ≤ k)
    (hle : m ≤ x) (hd : Rounds (x - m) d) (hq : Rounds (d / k) q) : 0 ≤ d ∧ 0 ≤ q ∧ q ≤ x - m := by
  have hk' : (2 : ℝ) ≤ k := by exact_mod_cast hk
  have hdnonneg : 0 ≤ d := hd.nonneg (sub_nonneg.2 hle)
  have hpart : 0 ≤ d / k := by positivity
  refine ⟨hdnonneg, hq.nonneg hpart, ?_⟩
  have hhalf : d / k ≤ d / 2 := by gcongr
  by_cases hexact : Representable (x - m)
  · rw [← hd.eq hexact]
    exact hq.le_of_le hd.representable (by linarith)
  -- a distance that is not in the format is far above the smallest number
  obtain ⟨a, ha⟩ := hx.exists_multiple
  obtain ⟨b, hb⟩ := hm.exists_multiple
  have hmultiple : x - m = ((a - b : ℤ) : ℝ) * 2 ^ (-1074 : ℤ) := by
    rw [ha, hb]
    push_cast
    ring
  have hnonneg : (0 : ℝ) ≤ ((a - b : ℤ) : ℝ) := by
    have hdistance : 0 ≤ x - m := sub_nonneg.2 hle
    rw [hmultiple] at hdistance
    exact nonneg_of_mul_nonneg_left hdistance (two_zpow_pos _)
  have hlarge : (2 : ℝ) ^ 53 < ((a - b : ℤ) : ℝ) := by
    by_contra hsmall
    refine hexact (hmultiple ▸ .of_multiple ?_)
    rw [abs_of_nonneg (by exact_mod_cast hnonneg)]
    exact_mod_cast not_lt.1 hsmall
  have hsmallest : (2 : ℝ) ^ (-1075 : ℤ) ≤ (x - m) / 2 ^ 54 := by
    have hunit := two_zpow_pos (-1074)
    have hsplit : (2 : ℝ) ^ (-1074 : ℤ) = 2 ^ (-1075 : ℤ) * 2 := by
      rw [← zpow_add_one₀ two_ne_zero]
      rfl
    rw [hmultiple, le_div_iff₀ (by positivity), hsplit]
    have hunit' := two_zpow_pos (-1075)
    nlinarith
  have hderror := (abs_le.1 hd.error_le).2
  have hqerror := (abs_le.1 hq.error_le).2
  rw [abs_of_nonneg (sub_nonneg.2 hle)] at hderror
  rw [abs_of_nonneg hpart] at hqerror
  have hdistance : 0 ≤ x - m := sub_nonneg.2 hle
  generalize (2 : ℝ) ^ (-1075 : ℤ) = smallest at hderror hqerror hsmallest
  norm_num at hderror hqerror hsmallest ⊢
  linarith

/-- The distances of a value from the mean before and after the mean moved have one sign.  The first
mean is zero, and moves to the first value. -/
theorem same_side {x m m' d q : ℝ} {k : ℕ} (hx : Representable x) (hm : Representable m)
    (hk : k = 1 ∧ m = 0 ∨ 2 ≤ k) (hd : Rounds (x - m) d) (hq : Rounds (d / k) q)
    (hm' : Rounds (m + q) m') : 0 ≤ d ∧ m' ≤ x ∨ d ≤ 0 ∧ x ≤ m' := by
  rcases hk with ⟨rfl, rfl⟩ | hk
  · rw [sub_zero] at hd
    obtain rfl := hd.eq hx
    rw [Nat.cast_one, div_one] at hq
    obtain rfl := hq.eq hx
    rw [zero_add] at hm'
    obtain rfl := hm'.eq hx
    exact (le_total 0 _).imp (⟨·, le_rfl⟩) (⟨·, le_rfl⟩)
  · rcases le_total m x with hle | hle
    · obtain ⟨hdnonneg, -, hmove⟩ := move_le hx hm hk hle hd hq
      exact .inl ⟨hdnonneg, hm'.le_of_le hx (by linarith)⟩
    · have hdneg : Rounds (-x - -m) (-d) := by
        have hneg := hd.neg
        rwa [neg_sub, ← neg_sub_neg] at hneg
      have hqneg : Rounds (-d / k) (-q) := by
        rw [neg_div]
        exact hq.neg
      obtain ⟨hdnonneg, -, hmove⟩ := move_le hx.neg hm.neg hk (neg_le_neg hle) hdneg hqneg
      exact .inr ⟨by linarith, hm'.ge_of_ge hx (by linarith)⟩

/-! ## Values and distances as floats -/

theorem abs_toInt_le (v : Int64) : |v.toInt| ≤ 2 ^ 63 :=
  abs_le.2 ⟨v.le_toInt, v.toInt_lt.le⟩

/-- A value is rounded when it becomes a float. -/
theorem denotes_ofValue (v : Int64) :
    ∃ x, Rounds v.toInt x ∧ Denotes (Scalar.ofValue v : Float) x :=
  denotes_ofInt ((abs_toInt_le v).trans (by norm_num))

/-- A count is a number of the format. -/
theorem denotes_ofCount {n : ℕ} (hn : n ≤ 2 ^ 53) : Denotes (Scalar.ofCount n : Float) n := by
  have hword : |(n : ℤ)| ≤ 2 ^ 53 := by
    rw [Nat.abs_cast]
    exact_mod_cast hn
  obtain ⟨c, hc, hdenotes⟩ := denotes_ofInt (hword.trans (by norm_num))
  have hrepresentable := Representable.intCast hword
  obtain rfl := hc.eq hrepresentable
  exact_mod_cast hdenotes

theorem denotes_zero : Denotes (Scalar.ofInt 0 : Float) 0 := by
  obtain ⟨c, hc, hdenotes⟩ := denotes_ofInt (n := 0) (by norm_num)
  rw [Int.cast_zero] at hc
  obtain rfl := hc.eq .zero
  exact hdenotes

/-- A bound of the values of a series. -/
structure Bound (M : ℝ) : Prop where
  one_le : 1 ≤ M
  le : M ≤ 2 ^ 63

namespace Bound

variable {M : ℝ}

theorem pos (hM : Bound M) : 0 < M := zero_lt_one.trans_le hM.one_le

theorem lastBit_pos (hM : Bound M) : 0 < lastBit M := div_pos hM.pos (by positivity)

theorem eq_lastBit (M : ℝ) : M = 2 ^ 52 * lastBit M := by
  rw [lastBit_eq, mul_div_cancel₀ _ (by positivity)]

theorem square_eq_lastBit (M : ℝ) : M * M = 2 ^ 52 * (lastBit M * M) := by
  rw [← mul_assoc, ← eq_lastBit]

theorem le_square (hM : Bound M) : M ≤ M * M := le_mul_of_one_le_left hM.pos.le hM.one_le

/-- What is not much larger than a square of the bound does not overflow. -/
theorem inRange (hM : Bound M) {r : ℝ} (h : |r| ≤ 2 ^ 52 * (M * M)) : |r| ≤ 2 ^ 1023 := by
  have hsquare : M * M ≤ 2 ^ 63 * 2 ^ 63 := mul_le_mul hM.le hM.le hM.pos.le (by positivity)
  calc |r| ≤ 2 ^ 52 * (M * M) := h
    _ ≤ 2 ^ 52 * (2 ^ 63 * 2 ^ 63) := by gcongr
    _ ≤ 2 ^ 1023 := by
      rw [← pow_add, ← pow_add]
      exact pow_le_pow_right₀ one_le_two (by norm_num)

theorem inRange_mul (hM : Bound M) {r a : ℝ} (h : |r| ≤ a * M) (ha : a ≤ 2 ^ 52) :
    |r| ≤ 2 ^ 1023 := by
  have hpos := hM.pos
  refine hM.inRange ?_
  calc |r| ≤ a * M := h
    _ ≤ 2 ^ 52 * M := by gcongr
    _ ≤ 2 ^ 52 * (M * M) := by
      gcongr
      exact hM.le_square

end Bound

/-- The distance of a value from a mean, as a float. -/
theorem exists_distance {M m x : ℝ} {v : Int64} {mean : Float} (hM : Bound M)
    (hv : |(v.toInt : ℝ)| ≤ M) (hx : Rounds v.toInt x) (hdx : Denotes (Scalar.ofValue v : Float) x)
    (hm : Denotes mean m) (hmle : |m| ≤ 2 * M) :
    ∃ d, Rounds (x - m) d ∧ Denotes (Scalar.ofValue v - mean) d ∧
      |d - (v.toInt - m)| ≤ 5 * lastBit M ∧ |d| ≤ 5 * M := by
  have hone := hM.one_le
  have hxerror : |x - v.toInt| ≤ lastBit M := hx.error_le_of_le hv hone
  have hM52 := Bound.eq_lastBit M
  have hlast := hM.lastBit_pos
  have hdistance : |x - m| ≤ 4 * M := by
    rw [abs_le] at *
    constructor <;> linarith
  obtain ⟨d, hd, hdenotes⟩ := denotes_sub hdx hm (hM.inRange_mul hdistance (by norm_num))
  have hderror := hd.error_le_mul hdistance (by norm_num) hone
  refine ⟨d, hd, hdenotes, ?_, ?_⟩ <;> rw [abs_le] at * <;> constructor <;> linarith

/-- Products that are added up, as floats: the sum stays in proportion to their number `k`, and it
loses no more than some last bits for each of them. -/
theorem exists_accumulate {M s d b : ℝ} {k : ℕ} {squares x y : Float} (hM : Bound M)
    (hk : (k : ℝ) + 1 ≤ 2 ^ 46) (hs : Denotes squares s) (hsnonneg : 0 ≤ s)
    (hsle : s ≤ 32 * k * (M * M)) (hx : Denotes x d) (hy : Denotes y b) (hd : |d| ≤ 5 * M)
    (hb : |b| ≤ 5 * M) (hdb : 0 ≤ d * b) :
    ∃ s', Denotes (squares + x * y) s' ∧ 0 ≤ s' ∧ s' ≤ 32 * (k + 1) * (M * M) ∧
      s + d * b ≤ s' + (32 * k + 51) * (lastBit M * M) := by
  have hMM : 1 ≤ M * M := hM.one_le.trans hM.le_square
  have hproduct : |d * b| ≤ 25 * (M * M) := by
    rw [abs_mul]
    calc |d| * |b| ≤ 5 * M * (5 * M) :=
          mul_le_mul hd hb (abs_nonneg b) (by linarith [hM.pos])
      _ = 25 * (M * M) := by ring
  obtain ⟨p, hp, hdp⟩ := denotes_mul hx hy (hM.inRange (hproduct.trans (by linarith)))
  have hpnonneg := hp.nonneg hdb
  have hperror := hp.error_le_mul hproduct (by norm_num) hMM
  -- everything is counted in last bits of a square from here on
  have hsquare := Bound.square_eq_lastBit M
  have hw : 0 < lastBit M * M := mul_pos hM.lastBit_pos hM.pos
  have hkw : (k : ℝ) * (lastBit M * M) ≤ 2 ^ 46 * (lastBit M * M) := by
    gcongr
    linarith
  have hkw0 : 0 ≤ (k : ℝ) * (lastBit M * M) := by positivity
  have hinRange {r : ℝ} := hM.inRange (r := r)
  rw [hsquare] at hsle hproduct hMM hperror ⊢
  rw [hsquare] at hinRange
  generalize lastBit M * M = w at *
  have hplace : lastBit (2 ^ 52 * w) = w := by
    rw [lastBit_eq, mul_div_cancel_left₀ _ (by positivity)]
  rw [hplace] at hperror
  have hsum : |s + p| ≤ (32 * k + 26) * (2 ^ 52 * w) := by
    rw [abs_le] at *
    constructor <;> linarith
  obtain ⟨s', hs', hds'⟩ := denotes_add hs hdp (hinRange (by linarith))
  have hserror := hs'.error_le_mul hsum (by linarith) hMM
  rw [hplace] at hserror
  refine ⟨s', hds', hs'.nonneg (add_nonneg hsnonneg hpnonneg), ?_, ?_⟩ <;>
    rw [abs_le] at * <;> linarith

/-- A distance from a mean that is off is as far off. -/
theorem distance_le_of_near {d x m μ c c' : ℝ} (hd : |d - (x - m)| ≤ c) (hm : |m - μ| ≤ c') :
    |d - (x - μ)| ≤ c + c' := by
  rw [abs_le] at *
  constructor <;> linarith

theorem abs_distance_le {x μ M : ℝ} (hx : |x| ≤ M) (hμ : |μ| ≤ M) : |x - μ| ≤ 2 * M := by
  rw [abs_le] at *
  constructor <;> linarith

/-- A product of two numbers that are off. -/
theorem mul_le_of_near {d b a a' c c' A B : ℝ} (hd : |d - a| ≤ c) (hb : |b - a'| ≤ c')
    (hB : |b| ≤ B) (hA : |a| ≤ A) : a * a' ≤ d * b + (c * B + A * c') := by
  have hleft : |(d - a) * b| ≤ c * B := by
    rw [abs_mul]
    exact mul_le_mul hd hB (abs_nonneg b) ((abs_nonneg _).trans hd)
  have hright : |a * (b - a')| ≤ A * c' := by
    rw [abs_mul]
    exact mul_le_mul hA hb (abs_nonneg _) ((abs_nonneg _).trans hA)
  rw [abs_le] at hleft hright
  linarith

/-! ## The running accumulator -/

namespace Running

/-- An accumulator of floats stays near the exact one: its mean is off by some last bits for every
value, and its squares lose no more than some last bits of a square for every two values. -/
structure Near (M : ℝ) (f : Tally) (q : Running ℚ) : Prop where
  count : f.count = q.count
  fresh : q.count = 0 → q.mean = 0
  bounded : |(q.mean : ℝ)| ≤ M
  mean : ∃ m, Denotes f.mean m ∧ |m - q.mean| ≤ 18 * q.count * lastBit M
  squares : ∃ s, Denotes f.squares s ∧ 0 ≤ s ∧ s ≤ 32 * q.count * (M * M) ∧
    q.squares ≤ s + 128 * q.count ^ 2 * (lastBit M * M)

theorem near_empty {M : ℝ} (hM : Bound M) : Near M empty empty := by
  have hcount : (empty : Running ℚ).count = 0 := rfl
  have hmean : (empty : Running ℚ).mean = 0 := rfl
  have hsquares : (empty : Running ℚ).squares = 0 := rfl
  refine ⟨rfl, fun _ => hmean, ?_, ⟨0, denotes_zero, ?_⟩, 0, denotes_zero, le_rfl, ?_, ?_⟩
  · simpa [hmean] using hM.pos.le
  · simp [hmean, hcount]
  · simp [hcount]
  · simp [hcount, hsquares]

variable {M : ℝ} {f : Tally} {q : Running ℚ} {v : Int64}

/-- The exact mean moves by a part of the distance of the value. -/
theorem cast_mean_push (q : Running ℚ) (v : Int64) : ((q.push v).mean : ℝ) =
    q.mean + (v.toInt - q.mean) * (1 / (q.count + 1 : ℕ)) := by
  rw [mean_push, mul_one_div]
  push_cast
  rfl

/-- The part by which a mean moves. -/
theorem part_bounds (k : ℕ) : (0 : ℝ) < 1 / (k + 1 : ℕ) ∧ (1 : ℝ) / (k + 1 : ℕ) ≤ 1 := by
  have hk : (1 : ℝ) ≤ (k + 1 : ℕ) := by exact_mod_cast Nat.le_add_left 1 k
  exact ⟨by positivity, (div_le_one (by positivity)).2 hk⟩

/-- The exact mean stays within the bound of the values. -/
theorem abs_mean_push_le (hq : |(q.mean : ℝ)| ≤ M) (hv : |(v.toInt : ℝ)| ≤ M) :
    |((q.push v).mean : ℝ)| ≤ M := by
  obtain ⟨hpart, hpart'⟩ := part_bounds q.count
  rw [cast_mean_push]
  generalize (1 : ℝ) / (q.count + 1 : ℕ) = part at *
  rw [abs_le] at *
  constructor <;> nlinarith

/-- The mean of floats is within twice the bound, before and after it moves. -/
theorem abs_le_of_near {m μ : ℝ} {k : ℕ} (hM : Bound M) (hμ : |μ| ≤ M)
    (hm : |m - μ| ≤ 18 * k * lastBit M) (hk : (k : ℝ) ≤ 2 ^ 46) : |m| ≤ 2 * M := by
  have hM52 := Bound.eq_lastBit M
  have hlast := hM.lastBit_pos
  have hplaces : (k : ℝ) * lastBit M ≤ 2 ^ 46 * lastBit M := by gcongr
  rw [abs_le] at *
  constructor <;> linarith

/-- The distance of a value, the part of it by which the mean moves, and the mean that results. -/
theorem exists_move {m : ℝ} {k : ℕ} {mean : Float} (hM : Bound M) (hv : |(v.toInt : ℝ)| ≤ M)
    (hm : Denotes mean m) (hmle : |m| ≤ 2 * M) (hk : k = 0 ∧ m = 0 ∨ 1 ≤ k) (hlt : k < 2 ^ 46) :
    ∃ x d m', Rounds v.toInt x ∧ Denotes (Scalar.ofValue v : Float) x ∧
      Denotes (Scalar.ofValue v - mean) d ∧
      Denotes (mean + (Scalar.ofValue v - mean) / Scalar.ofCount (k + 1)) m' ∧ |d| ≤ 5 * M ∧
      |d - (v.toInt - m)| ≤ 5 * lastBit M ∧
      |m' - (m + (v.toInt - m) * (1 / (k + 1 : ℕ)))| ≤ 18 * lastBit M ∧
      (0 ≤ d ∧ m' ≤ x ∨ d ≤ 0 ∧ x ≤ m') := by
  obtain ⟨x, hx, hdx⟩ := denotes_ofValue v
  obtain ⟨d, hd, hdd, hderror, hdle⟩ := exists_distance hM hv hx hdx hm hmle
  have hcount : Denotes (Scalar.ofCount (k + 1) : Float) (k + 1 : ℕ) :=
    denotes_ofCount (by omega)
  have hone := hM.one_le
  obtain ⟨hpart, hpart'⟩ := part_bounds k
  have hdpart : |d / (k + 1 : ℕ)| ≤ 5 * M := by
    rw [← mul_one_div, abs_mul, abs_of_pos hpart]
    exact (mul_le_of_le_one_right (abs_nonneg d) hpart').trans hdle
  obtain ⟨move, hmove, hdmove⟩ := denotes_div hdd hcount (by positivity)
    (hM.inRange_mul hdpart (by norm_num))
  have hmoveError := hmove.error_le_mul hdpart (by norm_num) hone
  have hM52 := Bound.eq_lastBit M
  have hlast := hM.lastBit_pos
  have hmoved : |m + move| ≤ 8 * M := by
    rw [abs_le] at *
    constructor <;> linarith
  obtain ⟨m', hm', hdm'⟩ := denotes_add hm hdmove (hM.inRange_mul hmoved (by norm_num))
  have hm'Error := hm'.error_le_mul hmoved (by norm_num) hone
  refine ⟨x, d, m', hx, hdx, hdd, hdm', hdle, hderror, ?_,
    same_side hdx.representable hm.representable (hk.imp ?_ ?_) hd hmove hm'⟩
  · have hscaled : |(d - (v.toInt - m)) * (1 / (k + 1 : ℕ))| ≤ 5 * lastBit M := by
      rw [abs_mul, abs_of_pos hpart]
      exact (mul_le_of_le_one_right (abs_nonneg _) hpart').trans hderror
    rw [sub_mul, mul_one_div] at hscaled
    rw [abs_le] at *
    constructor <;> linarith
  · rintro ⟨rfl, rfl⟩
    exact ⟨rfl, rfl⟩
  · exact Nat.succ_le_succ

/-- The mean of floats moves as the exact one, up to some last bits. -/
theorem near_mean_push {m m' : ℝ} (hm : |m - q.mean| ≤ 18 * q.count * lastBit M)
    (hm' : |m' - (m + (v.toInt - m) * (1 / (q.count + 1 : ℕ)))| ≤ 18 * lastBit M) :
    |m' - (q.push v).mean| ≤ 18 * (q.push v).count * lastBit M := by
  obtain ⟨hpart, hpart'⟩ := part_bounds q.count
  have hshrunk : |(m - q.mean) * (1 - 1 / (q.count + 1 : ℕ))| ≤ 18 * q.count * lastBit M := by
    rw [abs_mul]
    refine (mul_le_of_le_one_right (abs_nonneg _) ?_).trans hm
    rw [abs_le]
    constructor <;> linarith
  rw [cast_mean_push, count_push]
  generalize (1 : ℝ) / (q.count + 1 : ℕ) = part at *
  rw [Nat.cast_succ]
  rw [abs_le] at *
  constructor <;> linarith

/-- **One more value keeps an accumulator of floats near the exact one.** -/
theorem near_push (hM : Bound M) (h : Near M f q) (hv : |(v.toInt : ℝ)| ≤ M)
    (hcount : q.count < 2 ^ 46) : Near M (f.push v) (q.push v) := by
  obtain ⟨m, hm, hmean⟩ := h.mean
  obtain ⟨s, hs, hsnonneg, hsle, hsquares⟩ := h.squares
  have hk : (q.count : ℝ) + 1 ≤ 2 ^ 46 := by exact_mod_cast hcount
  have hmle := abs_le_of_near hM h.bounded hmean (by linarith)
  have hfirst : q.count = 0 ∧ m = 0 ∨ 1 ≤ q.count := by
    rcases Nat.eq_zero_or_pos q.count with hzero | hpos
    · rw [hzero, h.fresh hzero] at hmean
      simp at hmean
      exact .inl ⟨hzero, hmean⟩
    · exact .inr hpos
  obtain ⟨x, d, m', hx, hdx, hdd, hdm', hdle, hderror, hm', hside⟩ :=
    exists_move hM hv hm hmle hfirst hcount
  rw [← h.count] at hdm'
  have hmean' := near_mean_push hmean hm'
  have hbounded' := abs_mean_push_le h.bounded hv
  have hmle' := abs_le_of_near hM hbounded' hmean' (by rw [count_push, Nat.cast_succ]; exact hk)
  obtain ⟨b, hb, hdb, hberror, hble⟩ := exists_distance hM hv hx hdx hdm' hmle'
  have hsign : 0 ≤ d * b := by
    rcases hside with ⟨hdnonneg, hle⟩ | ⟨hdnonpos, hle⟩
    · exact mul_nonneg hdnonneg (hb.nonneg (sub_nonneg.2 hle))
    · exact mul_nonneg_of_nonpos_of_nonpos hdnonpos (hb.nonpos (sub_nonpos.2 hle))
  obtain ⟨s', hds', hs'nonneg, hs'le, hs'⟩ :=
    exists_accumulate hM hk hs hsnonneg hsle hdd hdb hdle hble hsign
  refine ⟨by rw [count_push, count_push, h.count], fun hzero => by simp at hzero, hbounded',
    ⟨m', hdm', hmean'⟩, s', hds', hs'nonneg, ?_, ?_⟩
  · rwa [count_push, Nat.cast_succ]
  · have hloss := mul_le_of_near (distance_le_of_near hderror hmean)
      (distance_le_of_near hberror hmean') hble (abs_distance_le hv h.bounded)
    have hw : 0 ≤ lastBit M * M := mul_nonneg hM.lastBit_pos.le hM.pos.le
    have hkw : 0 ≤ (q.count : ℝ) * (lastBit M * M) := mul_nonneg q.count.cast_nonneg hw
    have hpush : ((q.push v).squares : ℝ) =
        q.squares + (v.toInt - q.mean) * (v.toInt - (q.push v).mean) := by
      rw [squares_push]
      push_cast
      rfl
    rw [hpush]
    rw [count_push] at hloss ⊢
    push_cast at hloss ⊢
    linarith

/-- The accumulator of a series stays near the exact one. -/
theorem near_pushAll (hM : Bound M) {vs : List Int64} (h : Near M f q)
    (hvs : ∀ v ∈ vs, |(v.toInt : ℝ)| ≤ M) (hcount : q.count + vs.length ≤ 2 ^ 46) :
    Near M (f.pushAll vs) (q.pushAll vs) := by
  induction vs generalizing f q with
  | nil => exact h
  | cons v vs ih =>
    rw [List.length_cons] at hcount
    refine ih (near_push hM h (hvs v List.mem_cons_self) (by omega))
      (fun w hw => hvs w (List.mem_cons_of_mem v hw)) ?_
    rw [count_push]
    omega

end Running

/-! ## Two passes -/

/-- A value among the rationals is that among the reals. -/
theorem Scalar.cast_ofValue (v : Int64) : ((Scalar.ofValue v : ℚ) : ℝ) = v.toInt :=
  Rat.cast_intCast v.toInt

namespace Moments

variable {M : ℝ} {vs : List Int64}

section

variable {R : Type} [Scalar R]

theorem sum_concat (xs : List R) (x : R) : sum (xs ++ [x]) = sum xs + x := by
  rw [sum, List.foldl_append]
  rfl

theorem squaresAbout_concat (centre : R) (vs : List Int64) (v : Int64) :
    squaresAbout centre (vs ++ [v]) = squaresAbout centre vs +
      (Scalar.ofValue v - centre) * (Scalar.ofValue v - centre) := by
  rw [squaresAbout, List.map_append, List.map_singleton, sum_concat]
  rfl

end

/-- The sum of a series stays in proportion to its length. -/
theorem abs_total_le (hvs : ∀ v ∈ vs, |(v.toInt : ℝ)| ≤ M) : |(total vs : ℝ)| ≤ vs.length * M := by
  induction vs using List.reverseRecOn with
  | nil => simp [total]
  | append_singleton vs v ih =>
    have hinit := ih fun w hw => hvs w (List.mem_append_left _ hw)
    have hlast := hvs v (List.mem_append_right _ (List.mem_singleton_self v))
    rw [total_concat, List.length_append, List.length_singleton]
    push_cast
    rw [abs_le] at *
    constructor <;> linarith

/-- The sum of floats stays near the exact one: it is off by some last bits for every two values. -/
theorem near_sum (hM : Bound M) (hvs : ∀ v ∈ vs, |(v.toInt : ℝ)| ≤ M)
    (hlength : vs.length ≤ 2 ^ 46) :
    ∃ s, Denotes (sum (vs.map Scalar.ofValue)) s ∧
      |s - total vs| ≤ 3 * vs.length ^ 2 * lastBit M := by
  induction vs using List.reverseRecOn with
  | nil => exact ⟨0, denotes_zero, by simp [total]⟩
  | append_singleton vs v ih =>
    rw [List.length_append, List.length_singleton] at hlength
    have hinit : ∀ w ∈ vs, |(w.toInt : ℝ)| ≤ M := fun w hw => hvs w (List.mem_append_left _ hw)
    obtain ⟨s, hs, hserror⟩ := ih hinit (by omega)
    have hv := hvs v (List.mem_append_right _ (List.mem_singleton_self v))
    obtain ⟨x, hx, hdx⟩ := denotes_ofValue v
    have hxerror : |x - v.toInt| ≤ lastBit M := hx.error_le_of_le hv hM.one_le
    have htotal := abs_total_le hinit
    have hM52 := Bound.eq_lastBit M
    have hlast := hM.lastBit_pos
    have hn : (vs.length : ℝ) + 1 ≤ 2 ^ 46 := by exact_mod_cast hlength
    have hn0 : (0 : ℝ) ≤ vs.length := Nat.cast_nonneg _
    have hplaces : (vs.length : ℝ) ^ 2 * lastBit M ≤ vs.length * (2 ^ 46 * lastBit M) := by
      rw [pow_two, mul_assoc]
      gcongr
      linarith
    have hplaces0 : 0 ≤ (vs.length : ℝ) * lastBit M := mul_nonneg hn0 hlast.le
    have hnM : (vs.length : ℝ) * M = vs.length * (2 ^ 52 * lastBit M) := by rw [← hM52]
    have hsum : |s + x| ≤ (2 * vs.length + 2) * M := by
      rw [abs_le] at *
      constructor <;> linarith
    obtain ⟨s', hs', hds'⟩ := denotes_add hs hdx (hM.inRange_mul hsum (by linarith))
    have hs'error := hs'.error_le_mul hsum (by linarith) hM.one_le
    refine ⟨s', ?_, ?_⟩
    · rw [List.map_append, List.map_singleton, sum_concat]
      exact hds'
    · rw [total_concat, List.length_append, List.length_singleton]
      push_cast
      rw [abs_le] at *
      constructor <;> linarith

/-- The exact mean stays within the bound of the values. -/
theorem abs_meanOf_le (hvs : ∀ v ∈ vs, |(v.toInt : ℝ)| ≤ M) (hne : vs ≠ []) :
    |((meanOf vs : ℚ) : ℝ)| ≤ M := by
  have hpositive : (0 : ℝ) < vs.length := by exact_mod_cast List.length_pos_of_ne_nil hne
  rw [meanOf_eq]
  push_cast
  rw [abs_div, abs_of_pos hpositive, div_le_iff₀' hpositive]
  exact abs_total_le hvs

/-- The mean of floats is off by some last bits for every value. -/
theorem near_meanOf (hM : Bound M) (hvs : ∀ v ∈ vs, |(v.toInt : ℝ)| ≤ M) (hne : vs ≠ [])
    (hlength : vs.length ≤ 2 ^ 46) :
    ∃ m, Denotes (meanOf vs : Float) m ∧
      |m - (meanOf vs : ℚ)| ≤ 5 * vs.length * lastBit M := by
  obtain ⟨s, hs, hserror⟩ := near_sum hM hvs hlength
  have hpositive : (0 : ℝ) < vs.length := by exact_mod_cast List.length_pos_of_ne_nil hne
  have hone : (1 : ℝ) ≤ vs.length := by exact_mod_cast List.length_pos_of_ne_nil hne
  have hcount : Denotes (Scalar.ofCount vs.length : Float) vs.length := denotes_ofCount (by omega)
  have hM52 := Bound.eq_lastBit M
  have hlast := hM.lastBit_pos
  have hn : (vs.length : ℝ) ≤ 2 ^ 46 := by exact_mod_cast hlength
  have herror : |s / vs.length - (meanOf vs : ℚ)| ≤ 3 * vs.length * lastBit M := by
    rw [meanOf_eq]
    push_cast
    rw [← sub_div, abs_div, abs_of_pos hpositive, div_le_iff₀ hpositive]
    linarith
  have hmean := abs_meanOf_le hvs hne
  have hplaces : (vs.length : ℝ) * lastBit M ≤ 2 ^ 46 * lastBit M := by gcongr
  have hquotient : |s / vs.length| ≤ 2 * M := by
    rw [abs_le] at *
    constructor <;> linarith
  obtain ⟨m, hm, hdm⟩ := denotes_div hs hcount hpositive.ne'
    (hM.inRange_mul hquotient (by norm_num))
  have hmerror := hm.error_le_mul hquotient (by norm_num) hM.one_le
  have hlast' : lastBit M ≤ vs.length * lastBit M := le_mul_of_one_le_left hlast.le hone
  refine ⟨m, hdm, ?_⟩
  rw [abs_le] at *
  constructor <;> linarith

/-- The squared distances from a mean that is off lose some last bits of a square for each value. -/
theorem near_squaresAbout {m : ℝ} {μ : ℚ} {mean : Float} {n : ℕ} (hM : Bound M)
    (hvs : ∀ v ∈ vs, |(v.toInt : ℝ)| ≤ M) (hμ : |(μ : ℝ)| ≤ M) (hm : Denotes mean m)
    (hmle : |m| ≤ 2 * M) (hmean : |m - μ| ≤ 5 * n * lastBit M) (hlength : vs.length ≤ n)
    (hn : n ≤ 2 ^ 46) :
    ∃ s, Denotes (squaresAbout mean vs) s ∧ 0 ≤ s ∧ s ≤ 32 * vs.length * (M * M) ∧
      squaresAbout μ vs ≤ s + vs.length * (67 * n + 86) * (lastBit M * M) := by
  induction vs using List.reverseRecOn with
  | nil => exact ⟨0, denotes_zero, le_rfl, by simp, by simp [squaresAbout_eq_sum]⟩
  | append_singleton vs v ih =>
    rw [List.length_append, List.length_singleton] at hlength
    obtain ⟨s, hs, hsnonneg, hsle, hsquares⟩ :=
      ih (fun w hw => hvs w (List.mem_append_left _ hw)) (by omega)
    have hv := hvs v (List.mem_append_right _ (List.mem_singleton_self v))
    obtain ⟨x, hx, hdx⟩ := denotes_ofValue v
    obtain ⟨d, -, hdd, hderror, hdle⟩ := exists_distance hM hv hx hdx hm hmle
    have hk : (vs.length : ℝ) + 1 ≤ 2 ^ 46 := by exact_mod_cast hlength.trans hn
    obtain ⟨s', hds', hs'nonneg, hs'le, hs'⟩ :=
      exists_accumulate hM hk hs hsnonneg hsle hdd hdd hdle hdle (mul_self_nonneg d)
    have hfar := distance_le_of_near hderror hmean
    have hloss := mul_le_of_near hfar hfar hdle (abs_distance_le hv hμ)
    have hw : 0 ≤ lastBit M * M := mul_nonneg hM.lastBit_pos.le hM.pos.le
    have hkn : (vs.length : ℝ) * (lastBit M * M) ≤ n * (lastBit M * M) := by
      gcongr
      omega
    refine ⟨s', ?_, hs'nonneg, ?_, ?_⟩
    · rw [squaresAbout_concat]
      exact hds'
    · rwa [List.length_append, List.length_singleton, Nat.cast_succ]
    · rw [squaresAbout_concat, List.length_append, List.length_singleton]
      push_cast
      rw [Scalar.cast_ofValue]
      linarith

/-- Fewer than two values have no variance. -/
theorem cast_varianceAbout_of_few {μ : ℚ} (hfew : vs.length < 2) :
    ((varianceAbout μ vs : ℚ) : ℝ) = 0 := by
  rw [varianceAbout, if_pos hfew]
  exact Rat.cast_zero

theorem cast_varianceAbout {μ : ℚ} {k : ℕ} (hlength : vs.length = k + 2) :
    ((varianceAbout μ vs : ℚ) : ℝ) = (squaresAbout μ vs : ℚ) / (k + 1 : ℕ) := by
  have hpred : vs.length - 1 = k + 1 := by omega
  rw [varianceAbout, if_neg (by omega), hpred, Rat.cast_div]
  exact congrArg _ (Rat.cast_natCast (k + 1))

end Moments

/-! ## The variance -/

/-- A mean and a variance of floats that are near those of a series. -/
structure Accurate (M : ℝ) (vs : List Int64) (mean variance : Float) : Prop where
  bounded : |((Moments.meanOf vs : ℚ) : ℝ)| ≤ M
  mean : ∃ m, Denotes mean m ∧ |m - (Moments.meanOf vs : ℚ)| ≤ 18 * vs.length * lastBit M
  variance : ∃ w, Denotes variance w ∧ 0 ≤ w ∧ w ≤ 65 * (M * M) ∧
    (Moments.varianceAbout (Moments.meanOf vs) vs : ℚ) ≤
      w + 576 * vs.length * (lastBit M * M)

/-- The variance by squares that are near the exact ones. -/
theorem exists_variance {M s : ℝ} {vs : List Int64} {squares : Float} {μ : ℚ} (hM : Bound M)
    (hlength : vs.length ≤ 2 ^ 46) (hs : Denotes squares s) (hsnonneg : 0 ≤ s)
    (hsle : s ≤ 32 * vs.length * (M * M))
    (hsquares : (Moments.squaresAbout μ vs : ℚ) ≤
      s + 256 * (vs.length : ℝ) ^ 2 * (lastBit M * M)) :
    ∃ w, Denotes (if vs.length < 2 then Scalar.ofInt 0
        else squares / Scalar.ofCount (vs.length - 1)) w ∧ 0 ≤ w ∧ w ≤ 65 * (M * M) ∧
      (Moments.varianceAbout μ vs : ℚ) ≤ w + 576 * vs.length * (lastBit M * M) := by
  have hω : 0 < lastBit M * M := mul_pos hM.lastBit_pos hM.pos
  have hMM : 0 < M * M := mul_pos hM.pos hM.pos
  by_cases hfew : vs.length < 2
  · rw [if_pos hfew, Moments.cast_varianceAbout_of_few hfew]
    exact ⟨0, denotes_zero, le_rfl, by positivity, by positivity⟩
  obtain ⟨k, hk⟩ := Nat.exists_eq_add_of_le' (not_lt.1 hfew)
  have hpred : vs.length - 1 = k + 1 := by omega
  have hcount : Denotes (Scalar.ofCount (k + 1) : Float) (k + 1 : ℕ) := denotes_ofCount (by omega)
  have hp : (0 : ℝ) < (k + 1 : ℕ) := by positivity
  have hn : (vs.length : ℝ) ≤ 2 * (k + 1 : ℕ) := by
    exact_mod_cast (by omega : vs.length ≤ 2 * (k + 1))
  have hn2 : (2 : ℝ) ≤ vs.length := by exact_mod_cast not_lt.1 hfew
  rw [if_neg hfew, hpred, Moments.cast_varianceAbout hk]
  generalize ((k + 1 : ℕ) : ℝ) = p at *
  generalize (vs.length : ℝ) = n at *
  have hquotient : |s / p| ≤ 64 * (M * M) := by
    rw [abs_of_nonneg (by positivity), div_le_iff₀ hp]
    calc s ≤ 32 * n * (M * M) := hsle
      _ ≤ 32 * (2 * p) * (M * M) := by gcongr
      _ = 64 * (M * M) * p := by ring
  obtain ⟨w, hw, hdw⟩ := denotes_div hs hcount hp.ne' (hM.inRange (hquotient.trans (by linarith)))
  have hwerror := hw.error_le_mul hquotient (by norm_num) (hM.one_le.trans hM.le_square)
  rw [lastBit_mul, mul_comm M] at hwerror
  have hwnonneg : 0 ≤ w := hw.nonneg (by positivity)
  have hexact : ((Moments.squaresAbout μ vs : ℚ) : ℝ) / p ≤
      s / p + 512 * n * (lastBit M * M) := by
    rw [div_add' _ _ _ hp.ne']
    gcongr
    have hscaled : 256 * n * n * (lastBit M * M) ≤ 256 * n * (2 * p) * (lastBit M * M) := by
      gcongr
    linarith
  have hsquare := Bound.square_eq_lastBit M
  refine ⟨w, hdw, hwnonneg, ?_, ?_⟩
  · rw [abs_le] at *
    linarith
  · have hplaces : 2 * (lastBit M * M) ≤ n * (lastBit M * M) := by gcongr
    rw [abs_le] at *
    linarith

/-- The accumulator of a series is accurate. -/
theorem accurate_running {M : ℝ} {vs : List Int64} (hM : Bound M)
    (hvs : ∀ v ∈ vs, |(v.toInt : ℝ)| ≤ M) (hlength : vs.length ≤ 2 ^ 46) :
    Accurate M vs (Running.ofSeries vs : Tally).mean (Running.ofSeries vs : Tally).variance := by
  have hempty : (Running.empty : Running ℚ).count = 0 := rfl
  have hnear := Running.near_pushAll hM (Running.near_empty hM) hvs (by rw [hempty]; omega)
  have hwelford := Running.welford_ofSeries vs
  change Running.Near M (Running.ofSeries vs) (Running.ofSeries vs) at hnear
  obtain ⟨m, hm, hmean⟩ := hnear.mean
  obtain ⟨s, hs, hsnonneg, hsle, hsquares⟩ := hnear.squares
  rw [hwelford.count, hwelford.mean] at hmean
  rw [hwelford.count] at hsle
  rw [hwelford.count, hwelford.squares] at hsquares
  refine ⟨hwelford.mean ▸ hnear.bounded, ⟨m, hm, hmean⟩, ?_⟩
  have hloss : 0 ≤ (vs.length : ℝ) ^ 2 * (lastBit M * M) :=
    mul_nonneg (sq_nonneg _) (mul_nonneg hM.lastBit_pos.le hM.pos.le)
  have hvariance := exists_variance hM hlength hs hsnonneg hsle (hsquares.trans (by linarith))
  rwa [Running.variance, hnear.count, hwelford.count]

/-- So is a scan of the whole series in two passes. -/
theorem accurate_ofSeries? {M : ℝ} {vs : List Int64} (hM : Bound M)
    (hvs : ∀ v ∈ vs, |(v.toInt : ℝ)| ≤ M) (hlength : vs.length ≤ 2 ^ 46) {moments : Moments Float}
    (h : Moments.ofSeries? vs = some moments) : Accurate M vs moments.mean moments.variance := by
  cases vs with
  | nil => cases h
  | cons v vs =>
    cases h
    generalize hseries : v :: vs = ws at *
    have hne : ws ≠ [] := hseries ▸ List.cons_ne_nil v vs
    have hone : (1 : ℝ) ≤ ws.length := by exact_mod_cast List.length_pos_of_ne_nil hne
    have hlast := hM.lastBit_pos
    have hω : 0 < lastBit M * M := mul_pos hlast hM.pos
    have hbounded := Moments.abs_meanOf_le hvs hne
    obtain ⟨m, hm, hmean⟩ := Moments.near_meanOf hM hvs hne hlength
    have hmean' : |m - (Moments.meanOf ws : ℚ)| ≤ 18 * ws.length * lastBit M := by
      refine hmean.trans ?_
      gcongr
      norm_num
    have hmle := Running.abs_le_of_near hM hbounded hmean' (by exact_mod_cast hlength)
    obtain ⟨s, hs, hsnonneg, hsle, hsquares⟩ :=
      Moments.near_squaresAbout hM hvs hbounded hm hmle hmean le_rfl hlength
    refine ⟨hbounded, ⟨m, hm, hmean'⟩, exists_variance hM hlength hs hsnonneg hsle ?_⟩
    have hfactor : (ws.length : ℝ) * (67 * ws.length + 86) ≤ 256 * (ws.length : ℝ) ^ 2 := by
      nlinarith
    exact hsquares.trans (add_le_add_right (mul_le_mul_of_nonneg_right hfactor hω.le) s)

end Gauge
