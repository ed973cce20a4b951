import Gauge.Stats.Running
import Mathlib

/-!
# Running accumulators compute the moments of two passes

An accumulator moves its mean under its own sum of squares.  Over the rationals the two stay together:
after any values the mean is the mean of these values, and the squares are their squared distances
from it.  Both depend on the values through two sums only, those of the values and of their squares,
so neither the order of the values matters nor how they reached the accumulator.

## Main definitions

* `Moments.total`, `Moments.squared` — the sums of the values and of their squares.
* `Running.Welford` — an accumulator whose mean and squares are those of a series.
* `Feeding`, `Running.fed` — values pushed one at a time or several at once.

## Main statements

* `Running.welford_push` — one more value keeps the mean and the squares together.
* `Running.moments?_fed` — an accumulator knows the moments of what it was fed.
-/

namespace Gauge

/-! ## Sums over the rationals -/

namespace Moments

def total (vs : List Int64) : ℚ := (vs.map fun v => (v.toInt : ℚ)).sum

def squared (vs : List Int64) : ℚ := (vs.map fun v => (v.toInt : ℚ) ^ 2).sum

variable {vs ws : List Int64}

theorem sum_eq_sum (xs : List ℚ) : Moments.sum xs = xs.sum := by
  rw [List.sum_eq_foldl]
  rfl

theorem total_concat (vs : List Int64) (v : Int64) : total (vs ++ [v]) = total vs + v.toInt := by
  simp [total]

theorem squared_concat (vs : List Int64) (v : Int64) :
    squared (vs ++ [v]) = squared vs + (v.toInt : ℚ) ^ 2 := by
  simp [squared]

theorem total_perm (h : vs.Perm ws) : total vs = total ws := (h.map _).sum_eq

theorem squared_perm (h : vs.Perm ws) : squared vs = squared ws := (h.map _).sum_eq

/-- The mean, by the sum of the values. -/
theorem meanOf_eq (vs : List Int64) : (meanOf vs : ℚ) = total vs / vs.length :=
  congrArg (· / (vs.length : ℚ)) (sum_eq_sum _)

theorem squaresAbout_eq_sum (centre : ℚ) (vs : List Int64) :
    squaresAbout centre vs = (vs.map fun v => ((v.toInt : ℚ) - centre) ^ 2).sum := by
  simp only [pow_two]
  exact sum_eq_sum _

/-- The squared distances from any centre, by the two sums. -/
theorem squaresAbout_eq (centre : ℚ) (vs : List Int64) :
    squaresAbout centre vs = squared vs - 2 * centre * total vs + vs.length * centre ^ 2 := by
  rw [squaresAbout_eq_sum]
  induction vs using List.reverseRecOn with
  | nil => simp [squared, total]
  | append_singleton vs v ih =>
    rw [List.map_append, List.sum_append, ih, squared_concat, total_concat]
    simp only [List.map_singleton, List.sum_singleton, List.length_append, List.length_singleton,
      Nat.cast_add, Nat.cast_one]
    ring

end Moments

/-! ## Extremes -/

namespace Running

variable {R : Type} [Scalar R]

theorem count_pushAll (s : Running R) (vs : List Int64) :
    (s.pushAll vs).count = s.count + vs.length := by
  induction vs generalizing s with
  | nil => rfl
  | cons v vs ih =>
    rw [pushAll_cons, ih, count_push, List.length_cons]
    omega

@[simp] theorem count_ofSeries (vs : List Int64) : (ofSeries vs : Running R).count = vs.length :=
  (count_pushAll empty vs).trans (Nat.zero_add _)

/-- The accumulator of a series with values has counted some. -/
theorem count_ofSeries_ne_zero {vs : List Int64} (h : vs ≠ []) :
    (ofSeries vs : Running R).count ≠ 0 := by
  rw [count_ofSeries]
  exact mt List.length_eq_zero_iff.1 h

theorem min_pushAll (s : Running R) (vs : List Int64) :
    (s.pushAll vs).min = vs.foldl Min.min s.min := by
  induction vs generalizing s with
  | nil => rfl
  | cons v vs ih => exact ih (s.push v)

theorem max_pushAll (s : Running R) (vs : List Int64) :
    (s.pushAll vs).max = vs.foldl Max.max s.max := by
  induction vs generalizing s with
  | nil => rfl
  | cons v vs ih => exact ih (s.push v)

/-- Nothing is above the value that the smallest one starts from. -/
theorem min_maxValue (v : Int64) : Min.min Int64.maxValue v = v :=
  Std.le_antisymm Std.min_le_right (Std.le_min_iff.2 ⟨Int64.le_maxValue v, Std.le_refl v⟩)

/-- Nothing is below the value that the largest one starts from. -/
theorem max_minValue (v : Int64) : Max.max Int64.minValue v = v := if_pos (Int64.minValue_le v)

/-- A scan over a series finds the count and the extremes of its accumulator. -/
theorem extremes_ofSeries (v : Int64) (vs : List Int64) {m : Moments R}
    (h : Moments.ofSeries? (v :: vs) = some m) :
    m.count = (ofSeries (R := R) (v :: vs)).count ∧ m.min = (ofSeries (R := R) (v :: vs)).min ∧
      m.max = (ofSeries (R := R) (v :: vs)).max := by
  cases h
  rw [ofSeries, count_pushAll, min_pushAll, max_pushAll]
  refine ⟨?_, ?_, ?_⟩
  · simp [empty]
  · simp [empty, min_maxValue]
  · simp [empty, max_minValue]

theorem max_rightComm (u v w : Int64) : Max.max (Max.max u v) w = Max.max (Max.max u w) v := by
  have hmax (u v : Int64) : Max.max u v = if u ≤ v then v else u := rfl
  grind

/-- The extremes of an accumulator do not depend on the order of its series. -/
theorem extremes_perm {vs ws : List Int64} (h : vs.Perm ws) :
    (ofSeries vs : Running R).min = (ofSeries ws : Running R).min ∧
      (ofSeries vs : Running R).max = (ofSeries ws : Running R).max := by
  have : RightCommutative (Max.max : Int64 → Int64 → Int64) := ⟨max_rightComm⟩
  simp only [ofSeries, min_pushAll, max_pushAll]
  exact ⟨h.foldl_eq _, h.foldl_eq _⟩

/-! ## The mean and the squares -/

/-- The count, mean and squares of an accumulator are those of a series. -/
structure Welford (s : Running ℚ) (vs : List Int64) : Prop where
  count : s.count = vs.length
  mean : s.mean = Moments.meanOf vs
  squares : s.squares = Moments.squaresAbout (Moments.meanOf vs) vs

theorem welford_empty : (empty : Running ℚ).Welford [] where
  count := rfl
  mean := by
    rw [Moments.meanOf_eq, List.length_nil, Nat.cast_zero, div_zero]
    rfl
  squares := rfl

theorem mean_push (s : Running ℚ) (v : Int64) :
    (s.push v).mean = s.mean + (v.toInt - s.mean) / (s.count + 1 : ℕ) := rfl

theorem squares_push (s : Running ℚ) (v : Int64) :
    (s.push v).squares = s.squares + (v.toInt - s.mean) * (v.toInt - (s.push v).mean) := rfl

/-- The mean times the count is the sum, also where there is no value yet. -/
theorem Welford.mean_mul_length {s : Running ℚ} {vs : List Int64} (h : s.Welford vs) :
    s.mean * vs.length = Moments.total vs := by
  rw [h.mean, Moments.meanOf_eq]
  cases vs with
  | nil => simp [Moments.total]
  | cons v vs => exact div_mul_cancel₀ _ (Nat.cast_ne_zero.2 (Nat.succ_ne_zero _))

/-- **One more value keeps the mean and the squares together**: the mean moves to that of the longer
series, and what the squares gain is what the move costs all values before. -/
theorem welford_push {s : Running ℚ} {vs : List Int64} (h : s.Welford vs) (v : Int64) :
    (s.push v).Welford (vs ++ [v]) := by
  have htotal := h.mean_mul_length
  have hpositive : (vs.length : ℚ) + 1 ≠ 0 := Nat.cast_add_one_ne_zero _
  -- how far the mean moves
  set move : ℚ := (v.toInt - s.mean) / (vs.length + 1) with hmove
  have hvalue : (v.toInt : ℚ) = s.mean + move * (vs.length + 1) := by
    rw [hmove, div_mul_cancel₀ _ hpositive]
    ring
  have hmoved : (s.push v).mean = s.mean + move := by
    rw [mean_push, h.count, Nat.cast_add_one]
  have hmean : (s.push v).mean = Moments.meanOf (vs ++ [v]) := by
    rw [hmoved, Moments.meanOf_eq, Moments.total_concat, ← htotal, hvalue, List.length_append,
      List.length_singleton, Nat.cast_add_one, eq_div_iff hpositive]
    ring
  refine ⟨by simp [h.count], hmean, ?_⟩
  rw [squares_push, h.squares, ← hmean, Moments.squaresAbout_eq, Moments.squaresAbout_eq, ← h.mean,
    Moments.squared_concat, Moments.total_concat, ← htotal, hmoved, hvalue, List.length_append,
    List.length_singleton, Nat.cast_add_one]
  ring

/-- After any values the mean and the squares are those of the whole series. -/
theorem welford_pushAll {s : Running ℚ} {vs : List Int64} (h : s.Welford vs) (ws : List Int64) :
    (s.pushAll ws).Welford (vs ++ ws) := by
  induction ws generalizing s vs with
  | nil => simpa using h
  | cons w ws ih => simpa using ih (welford_push h w)

theorem welford_ofSeries (vs : List Int64) : (ofSeries vs : Running ℚ).Welford vs :=
  welford_pushAll welford_empty vs

/-- The accumulator of a series knows its moments. -/
theorem moments?_ofSeries (vs : List Int64) :
    (ofSeries vs : Running ℚ).moments? = Moments.ofSeries? vs := by
  cases vs with
  | nil => rfl
  | cons v vs =>
    obtain ⟨m, hm⟩ : ∃ m : Moments ℚ, Moments.ofSeries? (v :: vs) = some m := ⟨_, rfl⟩
    obtain ⟨hcount, hmin, hmax⟩ := extremes_ofSeries v vs hm
    have hwelford := welford_ofSeries (v :: vs)
    have hvariance : (ofSeries (v :: vs) : Running ℚ).variance =
        Moments.varianceAbout (Moments.meanOf (v :: vs)) (v :: vs) := by
      rw [variance, Moments.varianceAbout, hwelford.count, hwelford.squares]
    rw [moments?, if_neg (by rw [hwelford.count]; exact Nat.succ_ne_zero _), hm, ← hcount, ← hmin,
      ← hmax, hwelford.mean, hvariance]
    cases hm
    rfl

end Running

/-- The moments of a series do not depend on its order. -/
theorem Moments.ofSeries?_perm {vs ws : List Int64} (h : vs.Perm ws) :
    (ofSeries? vs : Option (Moments ℚ)) = ofSeries? ws := by
  have hvs := Running.welford_ofSeries vs
  have hws := Running.welford_ofSeries ws
  obtain ⟨hmin, hmax⟩ := Running.extremes_perm (R := ℚ) h
  have hsquares : (Running.ofSeries vs : Running ℚ).squares =
      (Running.ofSeries ws : Running ℚ).squares := by
    simp only [hvs.squares, hws.squares, squaresAbout_eq, meanOf_eq, total_perm h, squared_perm h,
      h.length_eq]
  have hmean : (Running.ofSeries vs : Running ℚ).mean =
      (Running.ofSeries ws : Running ℚ).mean := by
    rw [hvs.mean, hws.mean, meanOf_eq, meanOf_eq, total_perm h, h.length_eq]
  have hcount : (Running.ofSeries vs : Running ℚ).count =
      (Running.ofSeries ws : Running ℚ).count := by
    rw [hvs.count, hws.count, h.length_eq]
  rw [← Running.moments?_ofSeries, ← Running.moments?_ofSeries, Running.moments?, Running.moments?,
    Running.variance, Running.variance, hcount, hmean, hsquares, hmin, hmax]

/-! ## Feeding an accumulator -/

/-- How values reach an accumulator after its first ones were collected. -/
inductive Feeding where
  /-- one value -/
  | push (v : Int64)
  /-- several values at once -/
  | extend (vs : List Int64)
  deriving DecidableEq

def Feeding.values : Feeding → List Int64
  | push v => [v]
  | extend vs => vs

namespace Running

section

variable {R : Type} [Scalar R]

/-- An accumulator after one feeding. -/
def feed (s : Running R) : Feeding → Running R
  | .push v => s.push v
  | .extend vs => s.pushAll vs

/-- An accumulator that was collected from values and then fed with others. -/
def fed (collected : List Int64) (feedings : List Feeding) : Running R :=
  feedings.foldl feed (ofSeries collected)

theorem foldl_feed (s : Running R) (feedings : List Feeding) :
    feedings.foldl feed s = s.pushAll (feedings.flatMap Feeding.values) := by
  induction feedings generalizing s with
  | nil => rfl
  | cons feeding feedings ih =>
    rw [List.foldl_cons, ih, List.flatMap_cons, pushAll_append]
    cases feeding <;> rfl

/-- However values reach an accumulator, it is that of all of them in order. -/
theorem fed_eq (collected : List Int64) (feedings : List Feeding) :
    (fed collected feedings : Running R) =
      ofSeries (collected ++ feedings.flatMap Feeding.values) := by
  rw [fed, foldl_feed, ofSeries, ofSeries, pushAll_append]

end

/-- **An accumulator computes the moments of two passes.**  Feed it any values in any order, some
collected at first and the others one at a time or several at once: it knows the moments that a scan
over the series finds, and both know none of an empty series.  On the way, after each beginning of
what it is fed, its squares are the squared distances of these values from their own mean. -/
theorem moments?_fed {vs collected : List Int64} {feedings : List Feeding}
    (hfed : vs.Perm (collected ++ feedings.flatMap Feeding.values)) :
    (fed collected feedings : Running ℚ).moments? = Moments.ofSeries? vs ∧
      ((Moments.ofSeries? vs : Option (Moments ℚ)) = none ↔ vs = []) ∧
      ∀ seen rest, collected ++ feedings.flatMap Feeding.values = seen ++ rest →
        (fed collected feedings : Running ℚ) = (ofSeries seen).pushAll rest ∧
        (ofSeries seen : Running ℚ).squares =
          Moments.squaresAbout (Moments.meanOf seen : ℚ) seen := by
  refine ⟨?_, ?_, fun seen rest hparts => ⟨?_, (welford_ofSeries seen).squares⟩⟩
  · rw [fed_eq, moments?_ofSeries, Moments.ofSeries?_perm hfed]
  · cases vs <;> simp [Moments.ofSeries?]
  · rw [fed_eq, hparts, ofSeries, pushAll_append]
    rfl

/-- Three values, two of them collected in another order. -/
theorem moments?_fed_three :
    [4, 1, 7].Perm ([7, 4] ++ [Feeding.push 1].flatMap Feeding.values) ∧
      (fed [7, 4] [.push 1] : Running ℚ).moments?.map (fun m => (m.count, m.mean, m.variance)) =
        some (3, 4, 9) := by
  have hfed : [4, 1, 7].Perm ([7, 4] ++ [Feeding.push 1].flatMap Feeding.values) := by decide
  refine ⟨hfed, ?_⟩
  rw [(moments?_fed hfed).1]
  decide +kernel

end Running

end Gauge
