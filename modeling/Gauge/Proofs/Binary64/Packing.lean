import Gauge.Proofs.Binary64.Model

/-!
# Packed numbers

A float is stored in three parts, and a number in canonical form is packed into them.  Where the
number is in the range of the format, unpacking finds it again; beyond it, it is packed as infinity.

## Main definitions

* `ofParts` — what the three parts of a packed float stand for.
* `InRange` — a number in canonical form and in the range of the format.

## Main statements

* `unpack_pack_of_inRange` — packing keeps what is in range.
* `inRange_unpack` — every float that is a number is unpacked to canonical form.
* `unpack_pack_overflow` — what is out of range is packed as infinity.
-/

namespace Gauge

open Float.Model Float.Model.UnpackedFloat

variable {m : ℕ} {e : ℤ}

/-- Packing keeps the sign, as it keeps the other two parts. -/
theorem unpackSign_packComponents {format : Format} {s : Sign}
    {exponent : BitVec format.exponentBits}
    {mantissa : BitVec format.mantissaBitsWithoutImplicit} :
    unpackSign (packComponents format s exponent mantissa) = s.toBitVec := by
  ext i hi
  obtain rfl : i = 0 := by omega
  simp [unpackSign, packComponents, BitVec.getLsbD_append, BitVec.getElem_append]

theorem ofBitVec_toBitVec (s : Sign) : Sign.ofBitVec s.toBitVec = s := by
  cases s <;> rfl

theorem unpack_pack (x : UnpackedFloat) :
    (Float.Model.pack x).unpack = UnpackedFloat.unpack .binary64 (x.pack .binary64) := rfl

theorem exponentBias_binary64 : Format.binary64.exponentBias = 1023 := rfl

theorem mantissaBits_binary64 : Format.binary64.mantissaBits = 53 := rfl

/-- The highest bit of a mantissa is not packed. -/
theorem toNat_implicit (mantissa : BitVec 52) :
    (1#1 ++ mantissa).toNat = 2 ^ 52 + mantissa.toNat := by
  rw [BitVec.toNat_append, ← Nat.shiftLeft_add_eq_or_of_lt mantissa.isLt]
  rfl

/-- What the three parts of a packed float stand for. -/
def ofParts (s : Sign) (exponent : BitVec 11) (mantissa : BitVec 52) : UnpackedFloat :=
  if exponent = -1#11 then
    if mantissa = 0#52 then .infinity s else .notANumber
  else if exponent = 0#11 then
    if h : mantissa = 0#52 then .zero s
    else .finite s mantissa.toNat (exponent.toNat - 1075 + 1)
      (by simpa [BitVec.toNat_pos, BitVec.pos_iff_ne_zero] using h)
  else .finite s (1#1 ++ mantissa).toNat (exponent.toNat - 1075) (by rw [toNat_implicit]; positivity)

theorem unpack_eq_ofParts (bits : BitVec Format.binary64.numBits) :
    UnpackedFloat.unpack .binary64 bits =
      ofParts (.ofBitVec (unpackSign bits)) (unpackExponent bits) (unpackMantissa bits) := rfl

theorem unpack_packComponents (s : Sign) (exponent : BitVec 11) (mantissa : BitVec 52) :
    UnpackedFloat.unpack .binary64 (packComponents .binary64 s exponent mantissa) =
      ofParts s exponent mantissa := by
  rw [unpack_eq_ofParts, unpackExponent_packComponents, unpackMantissa_packComponents,
    unpackSign_packComponents, ofBitVec_toBitVec]

/-- A mantissa with 53 bits is packed without the highest one. -/
theorem unpack_pack_normal (s : Sign) (hm : 0 < m) (hfull : 2 ^ 52 ≤ m) (hlt : m < 2 ^ 53)
    (hmin : -1074 ≤ e) (hmax : e ≤ 971) :
    (Float.Model.pack (.finite s m e hm)).unpack = .finite s m e hm := by
  have hlog : m.log2 = 52 := (Nat.log2_eq_iff hm.ne').2 ⟨hfull, hlt⟩
  generalize hbiased : (e + 1075).toNat = biased
  have hpack : UnpackedFloat.pack .binary64 (.finite s m e hm) =
      packComponents .binary64 s (BitVec.ofNat 11 biased) (BitVec.ofNat 52 m) := by
    have hexponent : (e + Format.binary64.exponentBias + (52 : ℕ)).toNat = biased := by
      rw [← hbiased, exponentBias_binary64]
      omega
    simp only [UnpackedFloat.pack, hexponent, hlog]
    rw [if_neg (by omega), if_pos mantissaBits_binary64.symm]
  have hexponent : (BitVec.ofNat 11 biased).toNat = biased :=
    Nat.mod_eq_of_lt (by omega)
  have hmantissa : 2 ^ 52 + (BitVec.ofNat 52 m).toNat = m := by
    rw [BitVec.toNat_ofNat]
    omega
  have hnotAll : BitVec.ofNat 11 biased ≠ -1#11 := by
    intro h
    have htoNat := congrArg BitVec.toNat h
    rw [hexponent] at htoNat
    simp at htoNat
    omega
  have hnotZero : BitVec.ofNat 11 biased ≠ 0#11 := by
    intro h
    have htoNat := congrArg BitVec.toNat h
    rw [hexponent] at htoNat
    simp at htoNat
    omega
  rw [unpack_pack, hpack, unpack_packComponents, ofParts, if_neg hnotAll, if_neg hnotZero]
  congr 1
  · rw [toNat_implicit, hmantissa]
  · rw [hexponent]
    omega

/-- A smaller mantissa is packed as it is, with an exponent of zeros. -/
theorem unpack_pack_subnormal (s : Sign) (hm : 0 < m) (hlt : m < 2 ^ 52) :
    (Float.Model.pack (.finite s m (-1074) hm)).unpack = .finite s m (-1074) hm := by
  have hlog : m.log2 < 52 := (Nat.log2_lt hm.ne').2 hlt
  have hpack : UnpackedFloat.pack .binary64 (.finite s m (-1074) hm) =
      packComponents .binary64 s 0#11 (BitVec.ofNat 52 m) := by
    have hexponent : ((-1074) + Format.binary64.exponentBias + (52 : ℕ) : ℤ).toNat = 1 := rfl
    simp only [UnpackedFloat.pack, hexponent]
    rw [if_neg (by omega), if_neg (by rw [mantissaBits_binary64]; omega)]
  have hmantissa : (BitVec.ofNat 52 m).toNat = m := Nat.mod_eq_of_lt hlt
  have hnotZero : BitVec.ofNat 52 m ≠ 0#52 := by
    intro h
    have htoNat := congrArg BitVec.toNat h
    rw [hmantissa] at htoNat
    exact hm.ne' htoNat
  rw [unpack_pack, hpack, unpack_packComponents, ofParts, if_neg (by decide), if_pos rfl,
    dif_neg hnotZero]
  congr 1

/-- An unpacked float that can be packed: in canonical form and in the range of the format. -/
structure InRange (x : UnpackedFloat) : Prop where
  canonical : Canonical x
  lt : |unpackedValue x| < 2 ^ 1024

theorem inRange_zero (s : Sign) : InRange (.zero s) := by
  refine ⟨trivial, ?_⟩
  have hvalue : unpackedValue (.zero s) = 0 := rfl
  rw [hvalue, abs_zero]
  positivity

theorem exponent_le_of_inRange {s : Sign} {hm : 0 < m} (h : InRange (.finite s m e hm)) :
    e ≤ 971 := by
  obtain ⟨⟨-, -, hfull⟩, hvalue⟩ := h
  rw [value_finite, abs_signed, abs_of_nonneg (by positivity)] at hvalue
  by_contra hlarge
  have hm : (2 : ℝ) ^ 52 ≤ m := by exact_mod_cast hfull.resolve_right (by omega)
  have he : (2 : ℝ) ^ (972 : ℤ) ≤ 2 ^ e := zpow_le_zpow_right₀ one_le_two (by omega)
  have hpower : (2 : ℝ) ^ 52 * 2 ^ (972 : ℤ) = 2 ^ 1024 := by
    rw [zpow_ofNat, ← pow_add]
  have hproduct : (2 : ℝ) ^ 52 * 2 ^ (972 : ℤ) ≤ m * 2 ^ e := by gcongr
  rw [hpower] at hproduct
  exact hvalue.not_ge hproduct

/-- **Packing keeps what is in range.** -/
theorem unpack_pack_of_inRange {x : UnpackedFloat} (h : InRange x) :
    (Float.Model.pack x).unpack = x := by
  cases x with
  | infinity s => exact h.canonical.elim
  | notANumber => exact h.canonical.elim
  | zero s => cases s <;> rfl
  | finite s m e hm =>
    have hmax := exponent_le_of_inRange h
    obtain ⟨⟨hlt, hmin, hfull⟩, -⟩ := h
    by_cases hnormal : 2 ^ 52 ≤ m
    · exact unpack_pack_normal s hm hnormal hlt hmin hmax
    · obtain rfl : e = -1074 := hfull.resolve_left hnormal
      exact unpack_pack_subnormal s hm (not_le.1 hnormal)

theorem inRange_of_finite {s : Sign} {hm : 0 < m} (h : Canonical (.finite s m e hm))
    (hmax : e ≤ 971) : InRange (.finite s m e hm) := by
  refine ⟨h, ?_⟩
  rw [value_finite, abs_signed, abs_of_nonneg (by positivity)]
  have hlt : (m : ℝ) < 2 ^ 53 := by exact_mod_cast h.1
  have he : (2 : ℝ) ^ e ≤ 2 ^ (971 : ℤ) := zpow_le_zpow_right₀ one_le_two hmax
  calc (m : ℝ) * 2 ^ e < 2 ^ 53 * 2 ^ e := mul_lt_mul_of_pos_right hlt (two_zpow_pos e)
    _ ≤ 2 ^ 53 * 2 ^ (971 : ℤ) := by gcongr
    _ = 2 ^ 1024 := by rw [zpow_ofNat, ← pow_add]

theorem inRange_ofParts {s : Sign} {exponent : BitVec 11} {mantissa : BitVec 52}
    (h : (ofParts s exponent mantissa).isFinite) : InRange (ofParts s exponent mantissa) := by
  have hmantissa : mantissa.toNat < 2 ^ 52 := mantissa.isLt
  have hexponent : exponent.toNat < 2 ^ 11 := exponent.isLt
  rw [ofParts] at h ⊢
  split at h
  · split at h <;> cases h
  · next hnotAll =>
    have hbelow : exponent.toNat ≠ 2047 := fun hall => hnotAll (BitVec.eq_of_toNat_eq hall)
    rw [if_neg hnotAll]
    split at h
    · next hzero =>
      subst hzero
      rw [if_pos rfl]
      split at h
      · next hmantissaZero =>
        rw [dif_pos hmantissaZero]
        exact inRange_zero s
      · next hmantissaNotZero =>
        rw [dif_neg hmantissaNotZero]
        exact inRange_of_finite ⟨by omega, by simp, .inr (by simp)⟩ (by simp)
    · next hnotZero =>
      have habove : exponent.toNat ≠ 0 := fun hzero => hnotZero (BitVec.eq_of_toNat_eq hzero)
      have himplicit := toNat_implicit mantissa
      rw [if_neg hnotZero]
      exact inRange_of_finite ⟨by omega, by omega, .inl (by omega)⟩ (by omega)

/-- Every float that is a number is unpacked to canonical form. -/
theorem inRange_unpack {x : Float.Model} (h : x.unpack.isFinite) : InRange x.unpack :=
  inRange_ofParts h

/-- What is out of range is packed as infinity. -/
theorem unpack_pack_overflow (s : Sign) (hm : 0 < m) (hlarge : 972 ≤ e) :
    (Float.Model.pack (.finite s m e hm)).unpack = .infinity s := by
  have hpack : UnpackedFloat.pack .binary64 (.finite s m e hm) =
      packComponents .binary64 s (-1#11) 0#52 := by
    have hbiased : 2 ^ 11 ≤ (e + Format.binary64.exponentBias + (52 : ℕ)).toNat + 1 := by
      rw [exponentBias_binary64]
      omega
    rw [UnpackedFloat.pack, if_pos hbiased]
    rfl
  rw [unpack_pack, hpack, unpack_packComponents, ofParts, if_pos rfl, if_pos rfl]

end Gauge
