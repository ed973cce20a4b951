import Gauge.Proofs.Binary64.Arithmetic

/-!
# Comparisons of floats

Floats that are numbers are compared as these numbers.  A quotient may leave the range, and is infinite
then; but it is still on the right side of every number of the format, as if it had been rounded
without a limit on the exponent.

## Main definitions

* `Orders` — what a comparison says of two numbers.

## Main statements

* `le_iff_of_denotes`, `lt_iff_of_denotes`, `beq_iff_of_denotes` — comparisons are those of the numbers.
* `div_le_iff_of_denotes` — also of a quotient that may be out of range.
-/

namespace Gauge

open Float.Model Float.Model.UnpackedFloat

variable {x y z : Float} {a b t : ℝ} {u v : UnpackedFloat}

/-- In canonical form a larger exponent makes a larger number. -/
theorem magnitude_lt_of_exponent_lt {m m' : ℕ} {e e' : ℤ} (hlt : m < 2 ^ 53) (hmin : -1074 ≤ e)
    (hfull : 2 ^ 52 ≤ m' ∨ e' = -1074) (h : e < e') : (m : ℝ) * 2 ^ e < m' * 2 ^ e' := by
  have hm : (m : ℝ) < 2 ^ 53 := by exact_mod_cast hlt
  have hm' : (2 : ℝ) ^ 52 ≤ m' := by exact_mod_cast hfull.resolve_right (by omega)
  have hpower : (2 : ℝ) ^ (e + 1) ≤ 2 ^ e' := zpow_le_zpow_right₀ one_le_two (by omega)
  calc (m : ℝ) * 2 ^ e < 2 ^ 53 * 2 ^ e := mul_lt_mul_of_pos_right hm (two_zpow_pos e)
    _ = 2 ^ 52 * 2 ^ (e + 1) := by
      rw [zpow_add_one₀ two_ne_zero]
      ring
    _ ≤ m' * 2 ^ e' := by gcongr

/-- What a comparison says of the two numbers. -/
def Orders (order : Option Ordering) (a b : ℝ) : Prop :=
  (a < b ∧ order = some .lt) ∨ (a = b ∧ order = some .eq) ∨ (b < a ∧ order = some .gt)

theorem Orders.swap {order : Ordering} {a b : ℝ} (h : Orders (some order) a b) :
    Orders (some order.swap) (-a) (-b) := by
  rcases h with ⟨h, ho⟩ | ⟨h, ho⟩ | ⟨h, ho⟩ <;> cases ho
  · exact .inr (.inr ⟨neg_lt_neg h, rfl⟩)
  · exact .inr (.inl ⟨congrArg Neg.neg h, rfl⟩)
  · exact .inl ⟨neg_lt_neg h, rfl⟩

/-- Magnitudes in canonical form are compared by their exponents and then by their mantissas. -/
theorem orders_magnitudes {m m' : ℕ} {e e' : ℤ} (hlt : m < 2 ^ 53) (hmin : -1074 ≤ e)
    (hfull : 2 ^ 52 ≤ m ∨ e = -1074) (hlt' : m' < 2 ^ 53) (hmin' : -1074 ≤ e')
    (hfull' : 2 ^ 52 ≤ m' ∨ e' = -1074) :
    Orders (some ((compare e e').then (compare m m'))) (m * 2 ^ e) (m' * 2 ^ e') := by
  rcases lt_trichotomy e e' with he | rfl | he
  · rw [Int.compare_eq_lt.2 he]
    exact .inl ⟨magnitude_lt_of_exponent_lt hlt hmin hfull' he, rfl⟩
  · rw [Int.compare_eq_eq.2 rfl]
    have hunit := two_zpow_pos e
    rcases lt_trichotomy m m' with hm | rfl | hm
    · rw [Nat.compare_eq_lt.2 hm]
      exact .inl ⟨mul_lt_mul_of_pos_right (by exact_mod_cast hm) hunit, rfl⟩
    · rw [Nat.compare_eq_eq.2 rfl]
      exact .inr (.inl ⟨rfl, rfl⟩)
    · rw [Nat.compare_eq_gt.2 hm]
      exact .inr (.inr ⟨mul_lt_mul_of_pos_right (by exact_mod_cast hm) hunit, rfl⟩)
  · rw [Int.compare_eq_gt.2 he]
    exact .inr (.inr ⟨magnitude_lt_of_exponent_lt hlt' hmin' hfull he, rfl⟩)

/-- Numbers in canonical form are compared as numbers. -/
theorem orders_compare {u v : UnpackedFloat} (hu : Canonical u) (hv : Canonical v) :
    Orders (u.compare v) (unpackedValue u) (unpackedValue v) := by
  cases u with
  | infinity s => exact hu.elim
  | notANumber => exact hu.elim
  | zero s =>
    cases v with
    | infinity s => exact hv.elim
    | notANumber => exact hv.elim
    | zero s' => exact .inr (.inl ⟨rfl, rfl⟩)
    | finite s' m' e' hm' =>
      have hpositive : (0 : ℝ) < m' * 2 ^ e' := by positivity
      cases s' with
      | negative => exact .inr (.inr ⟨neg_neg_of_pos hpositive, rfl⟩)
      | positive => exact .inl ⟨hpositive, rfl⟩
  | finite s m e hm =>
    have hpositive : (0 : ℝ) < m * 2 ^ e := by positivity
    cases v with
    | infinity s => exact hv.elim
    | notANumber => exact hv.elim
    | zero s' =>
      cases s with
      | negative => exact .inl ⟨neg_neg_of_pos hpositive, rfl⟩
      | positive => exact .inr (.inr ⟨hpositive, rfl⟩)
    | finite s' m' e' hm' =>
      have hpositive' : (0 : ℝ) < m' * 2 ^ e' := by positivity
      obtain ⟨hlt, hmin, hfull⟩ := hu
      obtain ⟨hlt', hmin', hfull'⟩ := hv
      have hmagnitudes := orders_magnitudes hlt hmin hfull hlt' hmin' hfull'
      cases s <;> cases s'
      · exact hmagnitudes.swap
      · exact .inl ⟨(neg_neg_of_pos hpositive).trans hpositive', rfl⟩
      · exact .inr (.inr ⟨(neg_neg_of_pos hpositive').trans hpositive, rfl⟩)
      · exact hmagnitudes

/-- A number that is at most another one is a number. -/
theorem isNaN_of_le {x y : Float} (h : x ≤ y) : x.isNaN = false := by
  have hle : x.toModel.unpack.le y.toModel.unpack = true := of_decide_eq_true h
  rw [Float.isNaN, Float.Model.isNaN]
  cases hx : x.toModel.unpack with
  | notANumber => simp [hx, Float.Model.UnpackedFloat.le, Float.Model.UnpackedFloat.compare] at hle
  | _ => rfl

theorem le_iff_of_denotes (hx : Denotes x a) (hy : Denotes y b) : x ≤ y ↔ a ≤ b := by
  obtain rfl := hx.value
  obtain rfl := hy.value
  have hle : x ≤ y ↔ x.toModel.unpack.le y.toModel.unpack = true := decide_eq_true_iff
  rw [hle, UnpackedFloat.le]
  rcases orders_compare hx.inRange.canonical hy.inRange.canonical with ⟨h, ho⟩ | ⟨h, ho⟩ | ⟨h, ho⟩ <;> rw [ho]
  · exact iff_of_true rfl h.le
  · exact iff_of_true rfl h.le
  · exact iff_of_false (by decide) h.not_ge

theorem lt_iff_of_denotes (hx : Denotes x a) (hy : Denotes y b) : x < y ↔ a < b := by
  obtain rfl := hx.value
  obtain rfl := hy.value
  have hlt : x < y ↔ x.toModel.unpack.lt y.toModel.unpack = true := decide_eq_true_iff
  rw [hlt, UnpackedFloat.lt]
  rcases orders_compare hx.inRange.canonical hy.inRange.canonical with ⟨h, ho⟩ | ⟨h, ho⟩ | ⟨h, ho⟩ <;> rw [ho]
  · exact iff_of_true rfl h
  · exact iff_of_false (by decide) h.not_lt
  · exact iff_of_false (by decide) h.not_gt

theorem beq_iff_of_denotes (hx : Denotes x a) (hy : Denotes y b) : (x == y) = true ↔ a = b := by
  obtain rfl := hx.value
  obtain rfl := hy.value
  have hbeq : (x == y) = (x.toModel.unpack.compare y.toModel.unpack == some .eq) := rfl
  rw [hbeq]
  rcases orders_compare hx.inRange.canonical hy.inRange.canonical with ⟨h, ho⟩ | ⟨h, ho⟩ | ⟨h, ho⟩ <;> rw [ho]
  · exact iff_of_false (by decide) h.ne
  · exact iff_of_true rfl h
  · exact iff_of_false (by decide) h.ne'

/-- Infinity is at most a number where it is negative. -/
theorem infinity_le_iff (s : Sign) (hu : u.isFinite) :
    (UnpackedFloat.infinity s).le u = true ↔ s = .negative := by
  cases u with
  | infinity => cases hu
  | notANumber => cases hu
  | zero => cases s <;> simp [UnpackedFloat.le, UnpackedFloat.compare]
  | finite => cases s <;> simp [UnpackedFloat.le, UnpackedFloat.compare]

/-- A number in canonical form is on the same side of a float once it is packed, also where it is
packed as infinity. -/
theorem pack_le_iff (hu : Canonical u) (hz : Denotes z t) :
    Float.ofModel (.pack u) ≤ z ↔ unpackedValue u ≤ t := by
  by_cases hrange : |unpackedValue u| < 2 ^ 1024
  · exact le_iff_of_denotes (denotes_pack ⟨hu, hrange⟩) hz
  have hlarge : (2 : ℝ) ^ 1024 ≤ |unpackedValue u| := not_lt.1 hrange
  have ht := hz.inRange.lt
  rw [hz.value, abs_lt] at ht
  obtain ⟨s, m, e, hm, rfl⟩ : ∃ s m e hm, u = .finite s m e hm := by
    cases u with
    | infinity s => exact hu.elim
    | notANumber => exact hu.elim
    | zero s => exact absurd (inRange_zero s).lt hrange
    | finite s m e hm => exact ⟨s, m, e, hm, rfl⟩
  have hexponent : 972 ≤ e := by
    by_contra hsmall
    exact hrange (inRange_of_finite hu (by omega)).lt
  have hle : Float.ofModel (.pack (.finite s m e hm)) ≤ z ↔
      (UnpackedFloat.infinity s).le z.toModel.unpack = true := by
    rw [← unpack_pack_overflow s hm hexponent]
    exact decide_eq_true_iff
  have hpositive : (0 : ℝ) < m * 2 ^ e := by positivity
  rw [value_finite, abs_signed, abs_of_pos hpositive] at hlarge
  rw [hle, value_finite]
  rw [infinity_le_iff s hz.finite]
  cases s with
  | negative => exact iff_of_true rfl ((neg_le_neg hlarge).trans ht.1.le)
  | positive => exact iff_of_false Sign.noConfusion (ht.2.trans_le hlarge).not_ge

/-- A quotient is compared as its rounding, which may be out of range. -/
theorem div_le_iff_of_denotes (hx : Denotes x a) (hy : Denotes y b) (hb : b ≠ 0)
    (hz : Denotes z t) : ∃ c, Rounds (a / b) c ∧ (x / y ≤ z ↔ c ≤ t) := by
  obtain rfl := hx.value
  obtain rfl := hy.value
  obtain ⟨hcanonical, hrounds⟩ := rounds_div hx.inRange.canonical hy.inRange.canonical hb
  exact ⟨_, hrounds, pack_le_iff hcanonical hz⟩

end Gauge
