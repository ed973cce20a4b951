import Gauge.Proofs.Binary64.Packing

/-!
# Floats as numbers

A float that is neither infinite nor undefined denotes a number of the format.  The operations on such
floats denote roundings of the exact results, as long as these are far enough from the end of the
range.

## Main definitions

* `Denotes` — a float is a number, and which one.

## Main statements

* `denotes_add`, `denotes_sub`, `denotes_mul`, `denotes_div`, `denotes_sqrt` — the operations round.
* `denotes_ofInt` — so does the conversion of a whole number.
-/

namespace Gauge

open Float.Model Float.Model.UnpackedFloat

/-- A float is a number, and which one. -/
structure Denotes (x : Float) (r : ℝ) : Prop where
  finite : x.toModel.unpack.isFinite
  value : unpackedValue x.toModel.unpack = r

variable {x y : Float} {a b r : ℝ} {u : UnpackedFloat}

theorem isFinite_of_canonical (h : Canonical u) : u.isFinite := by
  cases u with
  | infinity s => exact h.elim
  | notANumber => exact h.elim
  | zero s => rfl
  | finite s m e hm => rfl

theorem representable_of_canonical (h : Canonical u) : Representable (unpackedValue u) := by
  cases u with
  | infinity s => exact h.elim
  | notANumber => exact h.elim
  | zero s => exact .zero
  | finite s m e hm =>
    obtain ⟨hlt, hmin, -⟩ := h
    have hpositive : Representable (m * 2 ^ e) :=
      ⟨m, e, by rw [Nat.abs_cast]; exact_mod_cast hlt.le, hmin, by push_cast; rfl⟩
    cases s with
    | negative => exact hpositive.neg
    | positive => exact hpositive

namespace Denotes

theorem inRange (h : Denotes x a) : InRange x.toModel.unpack := inRange_unpack h.finite

theorem representable (h : Denotes x a) : Representable a :=
  h.value ▸ representable_of_canonical h.inRange.canonical

end Denotes

/-- A float that was packed in range denotes what was packed. -/
theorem denotes_pack (h : InRange u) : Denotes (.ofModel (.pack u)) (unpackedValue u) where
  finite := by
    change (Float.Model.pack u).unpack.isFinite
    rw [unpack_pack_of_inRange h]
    exact isFinite_of_canonical h.1
  value := by
    change unpackedValue (Float.Model.pack u).unpack = _
    rw [unpack_pack_of_inRange h]

/-- An operation that rounds in canonical form, of an exact result that is not too large. -/
theorem exists_denotes_pack (h : Canonical u ∧ Rounds r (unpackedValue u)) (hr : |r| ≤ 2 ^ 1023) :
    ∃ c, Rounds r c ∧ Denotes (.ofModel (.pack u)) c := by
  obtain ⟨hcanonical, hrounds⟩ := h
  refine ⟨_, hrounds, denotes_pack ⟨hcanonical, ?_⟩⟩
  have hpower : Representable (2 ^ 1023) := by
    exact_mod_cast Representable.two_zpow (e := 1023) (by norm_num)
  have hupper := hrounds.le_of_le hpower (abs_le.1 hr).2
  have hlower := hrounds.ge_of_ge hpower.neg (abs_le.1 hr).1
  exact (abs_le.2 ⟨hlower, hupper⟩).trans_lt (pow_lt_pow_right₀ one_lt_two (by norm_num))

/-! ## Sums and differences -/

theorem signed_neg (s : Sign) (r : ℝ) : signed (-s) r = -signed s r := by
  cases s with
  | negative => exact (neg_neg r).symm
  | positive => rfl

theorem apply_cast (s : Sign) (n : ℕ) : ((s.apply n : ℤ) : ℝ) = signed s n := by
  cases s <;> simp [Sign.apply, signed]

theorem signed_mul_right (s : Sign) (a b : ℝ) : signed s a * b = signed s (a * b) := by
  cases s with
  | negative => exact neg_mul a b
  | positive => rfl

/-- A magnitude on a finer grid. -/
theorem apply_decreaseExponent (s : Sign) (m : ℕ) {e t : ℤ} (ht : t ≤ e) :
    ((s.apply (decreaseExponent m e t).1 : ℤ) : ℝ) * 2 ^ t = signed s (m * 2 ^ e) := by
  have hexponent : (decreaseExponent m e t).2 = t := by
    simp only [decreaseExponent]
    omega
  rw [apply_cast, signed_mul_right, ← decreaseExponent_value m e t, hexponent]

/-- What is packed again without a change is its own rounding. -/
theorem rounds_self (h : Canonical u) : Canonical u ∧ Rounds (unpackedValue u) (unpackedValue u) :=
  ⟨h, .of_representable (representable_of_canonical h)⟩

theorem rounds_zero (s : Sign) : Canonical (.zero s) ∧ Rounds 0 (unpackedValue (.zero s)) :=
  rounds_self (u := .zero s) trivial

/-- The sum of two numbers in canonical form is rounded. -/
theorem rounds_add {u v : UnpackedFloat} (hu : Canonical u) (hv : Canonical v) :
    Canonical (UnpackedFloat.add .binary64 u v) ∧
      Rounds (unpackedValue u + unpackedValue v)
        (unpackedValue (UnpackedFloat.add .binary64 u v)) := by
  cases u with
  | infinity s => exact hu.elim
  | notANumber => exact hu.elim
  | zero s =>
    rw [value_zero, zero_add]
    cases v with
    | infinity s => exact hv.elim
    | notANumber => exact hv.elim
    | zero s' =>
      rw [UnpackedFloat.add]
      split <;> exact rounds_zero _
    | finite s' m' e' hm' => exact rounds_self hv
  | finite s m e hm =>
    cases v with
    | infinity s => exact hv.elim
    | notANumber => exact hv.elim
    | zero s' =>
      rw [value_zero, add_zero]
      exact rounds_self hu
    | finite s' m' e' hm' =>
      rw [value_finite, value_finite, ← apply_decreaseExponent s m (min_le_left e e'),
        ← apply_decreaseExponent s' m' (min_le_right e e'), ← add_mul, ← Int.cast_add]
      exact rounds_normalize _ _ _

theorem neg_canonical (h : Canonical u) :
    Canonical u.neg ∧ unpackedValue u.neg = -unpackedValue u := by
  cases u with
  | infinity s => exact h.elim
  | notANumber => exact h.elim
  | zero s => exact ⟨trivial, neg_zero.symm⟩
  | finite s m e hm => exact ⟨h, signed_neg s _⟩

/-- The difference of two numbers in canonical form is rounded. -/
theorem rounds_sub {u v : UnpackedFloat} (hu : Canonical u) (hv : Canonical v) :
    Canonical (UnpackedFloat.sub .binary64 u v) ∧
      Rounds (unpackedValue u - unpackedValue v)
        (unpackedValue (UnpackedFloat.sub .binary64 u v)) := by
  cases u with
  | infinity s => exact hu.elim
  | notANumber => exact hu.elim
  | zero s =>
    cases v with
    | infinity s => exact hv.elim
    | notANumber => exact hv.elim
    | zero s' =>
      rw [value_zero, value_zero, sub_zero, UnpackedFloat.sub]
      split <;> exact rounds_zero _
    | finite s' m' e' hm' =>
      obtain ⟨hneg, hvalue⟩ := neg_canonical hv
      rw [value_zero, zero_sub, ← hvalue]
      exact rounds_self hneg
  | finite s m e hm =>
    cases v with
    | infinity s => exact hv.elim
    | notANumber => exact hv.elim
    | zero s' =>
      rw [value_zero, sub_zero]
      exact rounds_self hu
    | finite s' m' e' hm' =>
      rw [value_finite, value_finite, ← apply_decreaseExponent s m (min_le_left e e'),
        ← apply_decreaseExponent s' m' (min_le_right e e'), ← sub_mul, ← Int.cast_sub]
      exact rounds_normalize _ _ _

theorem denotes_add (hx : Denotes x a) (hy : Denotes y b) (h : |a + b| ≤ 2 ^ 1023) :
    ∃ c, Rounds (a + b) c ∧ Denotes (x + y) c := by
  obtain rfl := hx.value
  obtain rfl := hy.value
  exact exists_denotes_pack (rounds_add hx.inRange.canonical hy.inRange.canonical) h

theorem denotes_sub (hx : Denotes x a) (hy : Denotes y b) (h : |a - b| ≤ 2 ^ 1023) :
    ∃ c, Rounds (a - b) c ∧ Denotes (x - y) c := by
  obtain rfl := hx.value
  obtain rfl := hy.value
  exact exists_denotes_pack (rounds_sub hx.inRange.canonical hy.inRange.canonical) h

/-! ## Products and quotients -/

theorem mul_finite (s s' : Sign) (m m' : ℕ) (e e' : ℤ) (hm : 0 < m) (hm' : 0 < m') :
    UnpackedFloat.mul .binary64 (.finite s m e hm) (.finite s' m' e' hm') =
      roundWithAccuracy .binary64 (s * s') (m * m') (e + e') .exact := rfl

/-- The product of two numbers in canonical form is rounded. -/
theorem rounds_mul {u v : UnpackedFloat} (hu : Canonical u) (hv : Canonical v) :
    Canonical (UnpackedFloat.mul .binary64 u v) ∧
      Rounds (unpackedValue u * unpackedValue v)
        (unpackedValue (UnpackedFloat.mul .binary64 u v)) := by
  cases u with
  | infinity s => exact hu.elim
  | notANumber => exact hu.elim
  | zero s =>
    rw [value_zero, zero_mul]
    cases v with
    | infinity s => exact hv.elim
    | notANumber => exact hv.elim
    | zero s' => exact rounds_zero _
    | finite s' m' e' hm' => exact rounds_zero _
  | finite s m e hm =>
    cases v with
    | infinity s => exact hv.elim
    | notANumber => exact hv.elim
    | zero s' =>
      rw [value_zero, mul_zero]
      exact rounds_zero _
    | finite s' m' e' hm' =>
      have hproduct : (m : ℝ) * 2 ^ e * (m' * 2 ^ e') = (m * m' : ℕ) * 2 ^ (e + e') := by
        rw [zpow_add₀ two_ne_zero, Nat.cast_mul]
        ring
      rw [value_finite, value_finite, signed_mul, hproduct, mul_finite]
      refine rounds_roundWithAccuracy _ (describes_exact _) ?_
      obtain ⟨-, -, hfull⟩ := hu
      obtain ⟨-, -, hfull'⟩ := hv
      rw [Nat.le_log2 (Nat.mul_pos hm hm').ne']
      -- either factor brings 53 bits, or both have the smallest exponent
      rcases hfull with hfull | hmin
      · exact .inl (hfull.trans (Nat.le_mul_of_pos_right m hm'))
      · rcases hfull' with hfull' | hmin'
        · exact .inl (hfull'.trans (Nat.le_mul_of_pos_left m' hm))
        · exact .inr (by omega)

theorem denotes_mul (hx : Denotes x a) (hy : Denotes y b) (h : |a * b| ≤ 2 ^ 1023) :
    ∃ c, Rounds (a * b) c ∧ Denotes (x * y) c := by
  obtain rfl := hx.value
  obtain rfl := hy.value
  exact exists_denotes_pack (rounds_mul hx.inRange.canonical hy.inRange.canonical) h

/-- What a whole quotient and the accuracy of its fraction say of the exact quotient. -/
theorem describes_accuracyOfFraction {n d : ℕ} (hd : 0 < d) :
    Describes (.ofMantissaAndAccuracy (n / d) (accuracyOfFraction (n % d) d)) (n / d : ℝ) := by
  have hd' : (0 : ℝ) < d := by exact_mod_cast hd
  have hsplit : (n : ℝ) = d * (n / d : ℕ) + (n % d : ℕ) := by
    exact_mod_cast (Nat.div_add_mod n d).symm
  have hbelow : ((n % d : ℕ) : ℝ) < d := by exact_mod_cast Nat.mod_lt n hd
  have hquotient : (n / d : ℝ) = (n / d : ℕ) + (n % d : ℕ) / (d : ℝ) := by
    rw [hsplit]
    field_simp
  rw [hquotient, accuracyOfFraction]
  generalize n / d = q
  generalize n % d = rest at *
  by_cases hrest : rest = 0
  · rw [if_pos hrest, hrest, Nat.cast_zero, zero_div, add_zero]
    exact describes_exact q
  have hpositive : (0 : ℝ) < rest / d := div_pos (by exact_mod_cast Nat.pos_of_ne_zero hrest) hd'
  have hone : (rest / d : ℝ) < 1 := (div_lt_one hd').2 hbelow
  rw [if_neg hrest]
  rcases lt_trichotomy (2 * rest) d with hlt | heq | hgt
  · rw [Nat.compare_eq_lt.2 hlt]
    have hhalf : (rest / d : ℝ) < 1 / 2 := by
      rw [div_lt_iff₀ hd']
      have hlt' : (2 : ℝ) * rest < d := by exact_mod_cast hlt
      linarith
    exact describes_below (by linarith) (by linarith)
  · rw [Nat.compare_eq_eq.2 heq]
    have hhalf : (rest / d : ℝ) = 1 / 2 := by
      rw [div_eq_iff hd'.ne']
      have heq' : (2 : ℝ) * rest = d := by exact_mod_cast heq
      linarith
    exact describes_half (by rw [hhalf])
  · rw [Nat.compare_eq_gt.2 hgt]
    have hhalf : 1 / 2 < (rest / d : ℝ) := by
      rw [lt_div_iff₀ hd']
      have hgt' : (d : ℝ) < 2 * rest := by exact_mod_cast hgt
      linarith
    exact describes_above (by linarith) (by linarith)

/-- The exponent that a quotient is computed with. -/
theorem divCore_eq (m m' : ℕ) (e e' : ℤ) :
    ∃ k : ℕ, divCore .binary64 m e m' e' =
        (m * 2 ^ k / m', e - e' - k, accuracyOfFraction (m * 2 ^ k % m') m') ∧
      ((m'.log2 : ℤ) + 53 ≤ m.log2 + k ∨ e - e' - k ≤ -1074) := by
  rw [divCore]
  have htarget : Format.binary64.targetExponent (totalExponent m e - totalExponent m' e') =
      max ((m.log2 : ℤ) + e - (m'.log2 + e') - 53) (-1074) := by
    simp only [Format.targetExponent, totalExponent, Format.mantissaBits, Format.minExponent]
    norm_num
    omega
  simp only [htarget, Nat.shiftLeft_eq]
  refine ⟨_, Prod.ext rfl (Prod.ext ?_ rfl), ?_⟩
  · simp only
    omega
  · omega

/-- The quotient of two numbers in canonical form is rounded. -/
theorem rounds_div {u v : UnpackedFloat} (hu : Canonical u) (hv : Canonical v)
    (hzero : unpackedValue v ≠ 0) :
    Canonical (UnpackedFloat.div .binary64 u v) ∧
      Rounds (unpackedValue u / unpackedValue v)
        (unpackedValue (UnpackedFloat.div .binary64 u v)) := by
  cases v with
  | infinity s => exact hv.elim
  | notANumber => exact hv.elim
  | zero s' => exact absurd rfl hzero
  | finite s' m' e' hm' =>
    cases u with
    | infinity s => exact hu.elim
    | notANumber => exact hu.elim
    | zero s =>
      rw [value_zero, zero_div]
      exact rounds_zero _
    | finite s m e hm =>
      obtain ⟨k, hcore, hshift⟩ := divCore_eq m m' e e'
      have hquotient : (m : ℝ) * 2 ^ e / (m' * 2 ^ e') =
          ((m * 2 ^ k : ℕ) / m' : ℝ) * 2 ^ (e - e' - k) := by
        rw [zpow_sub₀ two_ne_zero, zpow_sub₀ two_ne_zero, zpow_natCast]
        push_cast
        field_simp
      rw [value_finite, value_finite, signed_div, UnpackedFloat.div, hcore, hquotient]
      refine rounds_roundWithAccuracy _ (describes_accuracyOfFraction hm') ?_
      refine hshift.imp_left fun hbits => ?_
      have hle : 2 ^ 52 ≤ m * 2 ^ k / m' := by
        rw [Nat.le_div_iff_mul_le hm']
        calc 2 ^ 52 * m' ≤ 2 ^ 52 * 2 ^ (m'.log2 + 1) :=
              Nat.mul_le_mul_left _ Nat.lt_log2_self.le
          _ ≤ 2 ^ (m.log2 + k) := by
            rw [← pow_add]
            exact Nat.pow_le_pow_right two_pos (by omega)
          _ ≤ m * 2 ^ k := by
            rw [pow_add]
            exact Nat.mul_le_mul_right _ (Nat.log2_self_le hm.ne')
      exact (Nat.le_log2 (by omega)).2 hle

theorem denotes_div (hx : Denotes x a) (hy : Denotes y b) (hb : b ≠ 0) (h : |a / b| ≤ 2 ^ 1023) :
    ∃ c, Rounds (a / b) c ∧ Denotes (x / y) c := by
  obtain rfl := hx.value
  obtain rfl := hy.value
  exact exists_denotes_pack (rounds_div hx.inRange.canonical hy.inRange.canonical hb) h

/-! ## Square roots -/

/-- What a whole square root and its accuracy say of the exact square root. -/
theorem describes_sqrt (n : ℕ) :
    Describes (.ofMantissaAndAccuracy n.sqrt (if n - n.sqrt * n.sqrt = 0 then .exact
      else .inexact (if n - n.sqrt * n.sqrt ≤ n.sqrt then .lt else .gt))) (√n) := by
  have hlow : n.sqrt * n.sqrt ≤ n := Nat.sqrt_le n
  have hhigh : n < (n.sqrt + 1) * (n.sqrt + 1) := Nat.lt_succ_sqrt n
  generalize n.sqrt = root at *
  have hroot : (0 : ℝ) ≤ root := root.cast_nonneg
  by_cases hexact : n - root * root = 0
  · have hn : n = root * root := by omega
    rw [if_pos hexact, hn, Nat.cast_mul, Real.sqrt_mul_self hroot]
    exact describes_exact root
  rw [if_neg hexact]
  -- half of the way to the next square there is no whole number
  by_cases hhalf : n - root * root ≤ root
  · have hlow' : (root : ℝ) ^ 2 < n := by
      have hlt : root * root < n := by omega
      rw [pow_two]
      exact_mod_cast hlt
    have hhalf' : (n : ℝ) ≤ root * root + root := by
      have hle : n ≤ root * root + root := by omega
      exact_mod_cast hle
    rw [if_pos hhalf]
    exact describes_below ((Real.lt_sqrt hroot).2 hlow')
      ((Real.sqrt_lt' (by positivity)).2 (by nlinarith))
  · have hhalf' : (root : ℝ) * root + root + 1 ≤ n := by
      have hle : root * root + root + 1 ≤ n := by omega
      exact_mod_cast hle
    have hhigh' : (n : ℝ) < (root + 1) ^ 2 := by
      rw [pow_two]
      exact_mod_cast hhigh
    rw [if_neg hhalf]
    exact describes_above ((Real.lt_sqrt (by positivity)).2 (by nlinarith))
      ((Real.sqrt_lt' (by positivity)).2 hhigh')

/-- The exponent that a square root is computed with. -/
theorem sqrtCore_eq (m : ℕ) (e : ℤ) :
    ∃ (k : ℕ) (t : ℤ), e - k = 2 * t ∧
      sqrtCore .binary64 m e = ((m * 2 ^ k).sqrt, t,
        if m * 2 ^ k - (m * 2 ^ k).sqrt * (m * 2 ^ k).sqrt = 0 then .exact
        else .inexact (if m * 2 ^ k - (m * 2 ^ k).sqrt * (m * 2 ^ k).sqrt ≤ (m * 2 ^ k).sqrt
          then .lt else .gt)) ∧
      (104 ≤ m.log2 + k ∨ t ≤ -1074) := by
  rw [sqrtCore]
  have htarget : Format.binary64.targetExponent ((totalExponent m e + 1).ediv 2) =
      max (((m.log2 : ℤ) + e + 2) / 2 - 53) (-1074) := by
    simp only [Format.targetExponent, totalExponent, Format.mantissaBits, Format.minExponent]
    norm_num
    have hdiv (a : ℤ) : a.ediv 2 = a / 2 := rfl
    rw [hdiv]
    omega
  have hdiv : e.ediv 2 = e / 2 := rfl
  simp only [htarget, hdiv, Nat.shiftLeft_eq]
  exact ⟨_, _, by omega, rfl, by omega⟩

/-- The square root of a number in canonical form that is not negative is rounded. -/
theorem rounds_sqrt (hu : Canonical u) (hnonneg : 0 ≤ unpackedValue u) :
    Canonical (UnpackedFloat.sqrt .binary64 u) ∧
      Rounds (√(unpackedValue u)) (unpackedValue (UnpackedFloat.sqrt .binary64 u)) := by
  cases u with
  | infinity s => exact hu.elim
  | notANumber => exact hu.elim
  | zero s =>
    rw [value_zero, Real.sqrt_zero]
    exact rounds_zero _
  | finite s m e hm =>
    have hpositive : (0 : ℝ) < m * 2 ^ e := by positivity
    cases s with
    | negative =>
      rw [value_finite, signed] at hnonneg
      linarith
    | positive =>
      obtain ⟨k, t, ht, hcore, hbits⟩ := sqrtCore_eq m e
      have hroot : √((m * 2 ^ k : ℕ) : ℝ) * 2 ^ t = √(m * 2 ^ e) := by
        have hsquare : (m : ℝ) * 2 ^ e = (m * 2 ^ k : ℕ) * (2 ^ t) ^ 2 := by
          have hexponent : e = k + t * 2 := by omega
          rw [hexponent, zpow_add₀ two_ne_zero, zpow_natCast, zpow_mul, Nat.cast_mul]
          push_cast
          rw [mul_assoc]
          rfl
        rw [hsquare, Real.sqrt_mul (Nat.cast_nonneg _), Real.sqrt_sq (two_zpow_pos t).le]
      have hrounds := rounds_roundWithAccuracy .positive (describes_sqrt (m * 2 ^ k))
        (e := t) ?_
      · rw [UnpackedFloat.sqrt, hcore, value_finite]
        rw [hroot] at hrounds
        exact hrounds
      · refine hbits.imp_left fun hbits => ?_
        have hle : 2 ^ 52 ≤ (m * 2 ^ k).sqrt := by
          rw [Nat.le_sqrt]
          calc 2 ^ 52 * 2 ^ 52 ≤ 2 ^ (m.log2 + k) := by
                rw [← pow_add]
                exact Nat.pow_le_pow_right two_pos hbits
            _ ≤ m * 2 ^ k := by
              rw [pow_add]
              exact Nat.mul_le_mul_right _ (Nat.log2_self_le hm.ne')
        exact (Nat.le_log2 (by omega)).2 hle

theorem denotes_sqrt (hx : Denotes x a) (ha : 0 ≤ a) :
    ∃ c, Rounds (√a) c ∧ Denotes x.sqrt c := by
  obtain rfl := hx.value
  refine exists_denotes_pack (rounds_sqrt hx.inRange.canonical ha) ?_
  have hlt := hx.inRange.lt
  rw [abs_of_nonneg ha] at hlt
  rw [abs_of_nonneg (Real.sqrt_nonneg _), Real.sqrt_le_iff]
  refine ⟨by positivity, hlt.le.trans ?_⟩
  rw [← pow_mul]
  exact pow_le_pow_right₀ one_le_two (by norm_num)

/-! ## Whole numbers -/

theorem denotes_neg (hx : Denotes x a) : Denotes x.neg (-a) := by
  obtain rfl := hx.value
  obtain ⟨hcanonical, hvalue⟩ := neg_canonical hx.inRange.canonical
  rw [← hvalue]
  refine denotes_pack ⟨hcanonical, ?_⟩
  rw [hvalue, abs_neg]
  exact hx.inRange.lt

theorem denotes_one : Denotes (Float.ofBits 0x3FF0000000000000) 1 := by
  have hunpack : (Float.ofBits 0x3FF0000000000000).toModel.unpack =
      .finite .positive (2 ^ 52) (-52) (by positivity) := rfl
  refine ⟨by rw [hunpack]; rfl, ?_⟩
  rw [hunpack, value_finite, signed]
  norm_num

/-- A whole number of at most 53 bits is converted as a word. -/
theorem ofNat_of_lt {n : ℕ} (hn : n < 2 ^ 53) :
    Float.ofNat n = n.toUInt64.toFloat * Float.ofBits 0x3FF0000000000000 := by
  change Float.ofScientific n false 0 = _
  rw [Float.ofScientific, dif_pos ⟨hn, by decide⟩]
  rfl

/-- A larger one goes through the conversion of decimals. -/
theorem ofNat_of_ge {n : ℕ} (hn : 2 ^ 53 ≤ n) :
    Float.ofNat n = .ofModel (.pack (UnpackedFloat.mul .binary64
      (.finite .positive (n <<< 53) (-53) (by rw [Nat.shiftLeft_eq]; positivity))
      (.finite .positive 1 0 Nat.one_pos))) := by
  change Float.ofScientific n false 0 = _
  rw [Float.ofScientific, dif_neg (by omega)]
  change Float.ofModel (.pack (UnpackedFloat.ofScientific .binary64 n 0)) = _
  have hpower : (0 : ℤ) < 2 ^ Format.binary64.exponentBits := by positivity
  rw [UnpackedFloat.ofScientific, dif_neg (by omega), if_neg (by omega), if_neg (by omega),
    if_pos le_rfl]
  rfl

theorem denotes_ofNat {n : ℕ} (hn : n ≤ 2 ^ 64) :
    ∃ c, Rounds n c ∧ Denotes (Float.ofNat n) c := by
  have hbound : |(n : ℝ)| ≤ 2 ^ 1023 := by
    rw [Nat.abs_cast]
    have hle : (n : ℝ) ≤ 2 ^ 64 := by exact_mod_cast hn
    exact hle.trans (pow_le_pow_right₀ one_le_two (by norm_num))
  by_cases hsmall : n < 2 ^ 53
  · have hword : n.toUInt64.toNat = n := Nat.mod_eq_of_lt (by omega)
    have hrounds := rounds_normalize n 0 .positive
    rw [zpow_zero, mul_one, Int.cast_natCast] at hrounds
    obtain ⟨c, hc, hdenotes⟩ := exists_denotes_pack hrounds hbound
    have hrepresentable : Representable n := by
      have hcast := Representable.intCast (m := n) (by rw [Nat.abs_cast]; exact_mod_cast hsmall.le)
      exact_mod_cast hcast
    obtain rfl := hc.eq hrepresentable
    rw [ofNat_of_lt hsmall]
    have hproduct := denotes_mul hdenotes denotes_one (by rwa [mul_one])
    rw [mul_one] at hproduct
    have hfloat : n.toUInt64.toFloat =
        .ofModel (.pack (UnpackedFloat.normalize .binary64 n 0 .positive)) := by
      conv_rhs => rw [← hword]
      rfl
    rwa [hfloat]
  · have hle : 2 ^ 53 ≤ n := not_lt.1 hsmall
    rw [ofNat_of_ge hle]
    refine exists_denotes_pack ?_ hbound
    have hvalue : signed (.positive * .positive)
        (((n <<< 53 * 1 : ℕ) : ℝ) * 2 ^ (-53 + 0 : ℤ)) = n := by
      rw [Nat.shiftLeft_eq, mul_one, Nat.cast_mul, Nat.cast_pow, Nat.cast_ofNat, add_zero, zpow_neg,
        zpow_ofNat]
      have hpower : (2 : ℝ) ^ 53 ≠ 0 := by positivity
      exact mul_inv_cancel_right₀ hpower _
    rw [← hvalue, mul_finite]
    refine rounds_roundWithAccuracy _ (describes_exact _) (.inl ?_)
    rw [Nat.le_log2 (by omega), Nat.shiftLeft_eq]
    omega

theorem denotes_ofInt {n : ℤ} (hn : |n| ≤ 2 ^ 64) :
    ∃ c, Rounds n c ∧ Denotes (Float.ofInt n) c := by
  cases n with
  | ofNat n =>
    rw [Int.ofNat_eq_natCast, Nat.abs_cast] at hn
    exact denotes_ofNat (by exact_mod_cast hn)
  | negSucc n =>
    rw [Int.negSucc_eq, abs_neg, abs_of_nonneg (by omega)] at hn
    obtain ⟨c, hrounds, hdenotes⟩ := denotes_ofNat (n := n + 1) (by omega)
    refine ⟨-c, ?_, denotes_neg hdenotes⟩
    rw [Int.cast_negSucc]
    exact hrounds.neg

end Gauge
