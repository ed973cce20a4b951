import Mathlib
import Gauge.Throughput
import Gauge.Proofs.Instrument

/-!
# The sizes of the phases

The sizes of a plan are an arithmetic progression up to its largest size.  Two tests cut it off:
whether a size is above the largest one, and whether the next size is still a word.  They agree
where they meet, as a size that is no word any more is above every largest size.

## Main definitions

* `Plan.countFrom` — how many sizes of a plan there are from a number on.

## Main statements

* `Plan.next?_eq_some_iff`, `Plan.next?_eq_none_iff` — the next size is the sum, wherever it is a
  word.
* `Plan.map_toNat_sizesFrom` — the sizes from a given one on, as a progression.
* `Plan.create_eq_ok_iff` — which plans can be made.
* `Plan.sizes_are_progression` — the sizes of every plan, and which plans can be made.
-/

namespace Gauge.Plan

variable {p : Plan} {size size' : UInt64}

/-! ## From one size to the next -/

theorem growth_toNat (p : Plan) : p.growth.toNat = p.step.toNat ⊔ 1 := by
  unfold growth
  split
  · next h =>
    rw [h]
    rfl
  · next h =>
    have : p.step.toNat ≠ 0 := fun e => h (UInt64.toNat_inj.1 e)
    omega

theorem next?_eq_none_iff : p.next? size = none ↔ UInt64.size ≤ size.toNat + p.growth.toNat := by
  rw [← add_lt_left_iff, next?]
  split
  · next h => exact iff_of_true rfl h
  · next h => exact iff_of_false (by simp) h

/-- The next size is the sum, without wrapping. -/
theorem next?_eq_some_iff :
    p.next? size = some size' ↔ size'.toNat = size.toNat + p.growth.toNat := by
  by_cases h : size + p.growth < size
  · have hsize := (add_lt_left_iff _ _).1 h
    have hsize' := size'.toNat_lt_size
    rw [next?, if_pos h]
    exact iff_of_false (by simp) (by omega)
  · rw [next?, if_neg h, Option.some_inj, ← toNat_add_of_not_lt h, eq_comm]
    exact UInt64.toNat_inj.symm

/-! ## All sizes -/

theorem sizesFrom_of_lt (h : p.max < size) : p.sizesFrom size = [] := by
  rw [sizesFrom, if_pos h]

theorem sizesFrom_of_last (h : ¬ p.max < size) (hlast : p.next? size = none) :
    p.sizesFrom size = [size] := by
  rw [sizesFrom, if_neg h]
  split
  · rfl
  · next hnext =>
    rw [hlast] at hnext
    cases hnext

theorem sizesFrom_of_next (h : ¬ p.max < size) (hnext : p.next? size = some size') :
    p.sizesFrom size = size :: p.sizesFrom size' := by
  rw [sizesFrom, if_neg h]
  split
  · next hlast =>
    rw [hlast] at hnext
    cases hnext
  · next other hother =>
    cases hnext.symm.trans hother
    rfl

/-- How many sizes of a plan there are from a number on. -/
def countFrom (p : Plan) (n : Nat) : Nat := (p.max.toNat + p.growth.toNat - n) / p.growth.toNat

theorem countFrom_of_lt {n : Nat} (h : p.max.toNat < n) : p.countFrom n = 0 := by
  have hpos := p.growth_pos
  exact Nat.div_eq_of_lt (by omega)

theorem countFrom_of_le {n : Nat} (h : n ≤ p.max.toNat) :
    p.countFrom n = (p.max.toNat - n) / p.growth.toNat + 1 := by
  rw [countFrom, Nat.sub_add_comm h, Nat.add_div_right _ p.growth_pos]

/-- One size is left out when the others are counted from the next one on. -/
theorem countFrom_succ {n : Nat} (h : n ≤ p.max.toNat) :
    p.countFrom n = p.countFrom (n + p.growth.toNat) + 1 := by
  rw [countFrom_of_le h, countFrom, Nat.add_sub_add_right]

/-- **The sizes from a given one on are a progression** that ends below the largest size. -/
theorem map_toNat_sizesFrom (p : Plan) (size : UInt64) :
    (p.sizesFrom size).map UInt64.toNat =
      List.range' size.toNat (p.countFrom size.toNat) p.growth.toNat := by
  induction size using sizesFrom.induct p with
  | case1 size hsize =>
    rw [sizesFrom_of_lt hsize, countFrom_of_lt (UInt64.lt_iff_toNat_lt.1 hsize)]
    rfl
  | case2 size hsize hlast =>
    have hle : size.toNat ≤ p.max.toNat := not_lt.1 (mt UInt64.lt_iff_toNat_lt.2 hsize)
    -- a sum that is no word is above the largest size, so nothing is lost with it
    have habove : p.max.toNat < size.toNat + p.growth.toNat :=
      lt_of_lt_of_le p.max.toNat_lt_size (next?_eq_none_iff.1 hlast)
    rw [sizesFrom_of_last hsize hlast, countFrom_succ hle, countFrom_of_lt habove]
    rfl
  | case3 size hsize size' hnext _ ih =>
    have hle : size.toNat ≤ p.max.toNat := not_lt.1 (mt UInt64.lt_iff_toNat_lt.2 hsize)
    rw [sizesFrom_of_next hsize hnext, List.map_cons, ih, next?_eq_some_iff.1 hnext,
      countFrom_succ hle, List.range'_succ]

/-- The sizes grow from one phase to the next. -/
theorem pairwise_sizesFrom (p : Plan) (size : UInt64) : (p.sizesFrom size).Pairwise (· < ·) := by
  have hgrows : ((p.sizesFrom size).map UInt64.toNat).Pairwise (· < ·) := by
    rw [map_toNat_sizesFrom]
    exact List.pairwise_lt_range' _ p.growth_pos
  exact (List.pairwise_map.1 hgrows).imp UInt64.lt_iff_toNat_lt.2

theorem length_sizes (p : Plan) :
    p.sizes.length =
      if p.max < p.start then 0
      else (p.max.toNat - p.start.toNat) / p.growth.toNat + 1 := by
  rw [← List.length_map UInt64.toNat, sizes, map_toNat_sizesFrom, List.length_range']
  split
  · next h => exact countFrom_of_lt (UInt64.lt_iff_toNat_lt.1 h)
  · next h => exact countFrom_of_le (UInt64.le_iff_toNat_le.1 (UInt64.not_lt.1 h))

/-- A number is a size exactly where a whole number of steps leads to it, no further than to the
largest size. -/
theorem mem_map_toNat_sizes_iff {n : Nat} :
    n ∈ p.sizes.map UInt64.toNat ↔
      n ≤ p.max.toNat ∧ ∃ k, n = p.start.toNat + k * p.growth.toNat := by
  have hcount (k : Nat) : k < p.countFrom p.start.toNat ↔
      p.start.toNat + k * p.growth.toNat ≤ p.max.toNat := by
    rw [countFrom, ← Nat.succ_le_iff, Nat.le_div_iff_mul_le p.growth_pos, Nat.succ_mul]
    have := p.growth_pos
    omega
  rw [sizes, map_toNat_sizesFrom, List.mem_range']
  constructor
  · rintro ⟨k, hk, rfl⟩
    rw [Nat.mul_comm]
    exact ⟨(hcount k).1 hk, k, rfl⟩
  · rintro ⟨hle, k, rfl⟩
    exact ⟨k, (hcount k).2 hle, by rw [Nat.mul_comm]⟩

/-! ## Plans that can be made -/

/-- A plan is made of a start and a step that are not zero, and a start that is not above the
largest size. -/
theorem create_eq_ok_iff {start step max : UInt64} :
    create start step max = .ok p ↔
      p = ⟨start, step, max⟩ ∧ 0 < start ∧ 0 < step ∧ start ≤ max := by
  rw [create, UInt64.pos_iff_ne_zero, UInt64.pos_iff_ne_zero, ← UInt64.not_lt]
  by_cases hstill : start = 0 ∨ step = 0
  · rw [if_pos hstill]
    exact iff_of_false (by simp) fun h => hstill.elim h.2.1 h.2.2.1
  · rw [if_neg hstill]
    obtain ⟨hstart, hstep⟩ := not_or.1 hstill
    by_cases hmax : max < start
    · rw [if_pos hmax]
      exact iff_of_false (by simp) fun h => h.2.2.2 hmax
    · rw [if_neg hmax, Except.ok.injEq, eq_comm]
      exact (and_iff_left ⟨hstart, hstep, hmax⟩).symm

/-- **The sizes of a plan are the bounded progression**: all numbers that whole steps lead to from
the start, up to the largest size, each once and in ascending order.  No sum on the way wraps.  A
plan can be made exactly if it starts, grows and does not start above its largest size, and then it
has a size. -/
theorem sizes_are_progression (p : Plan) :
    (∀ n : Nat, n ∈ p.sizes.map UInt64.toNat ↔
      n ≤ p.max.toNat ∧ ∃ k, n = p.start.toNat + k * (p.step.toNat ⊔ 1)) ∧
    p.sizes.Pairwise (· < ·) ∧
    p.sizes.length =
      (if p.max < p.start then 0
        else (p.max.toNat - p.start.toNat) / (p.step.toNat ⊔ 1) + 1) ∧
    (∀ size size', p.next? size = some size' ↔
      size'.toNat = size.toNat + (p.step.toNat ⊔ 1)) ∧
    (∀ start step max, create start step max = .ok p ↔
      p = ⟨start, step, max⟩ ∧ 0 < start ∧ 0 < step ∧ start ≤ max) ∧
    (∀ start step max, create start step max = .ok p → p.sizes ≠ []) := by
  rw [← growth_toNat]
  refine ⟨fun n => mem_map_toNat_sizes_iff, p.pairwise_sizesFrom p.start, p.length_sizes,
    fun size size' => next?_eq_some_iff, fun start step max => create_eq_ok_iff, ?_⟩
  intro start step max hp hnone
  obtain ⟨rfl, -, -, hmax⟩ := create_eq_ok_iff.1 hp
  have hlength := length_sizes ⟨start, step, max⟩
  rw [hnone, if_neg (UInt64.not_lt.2 hmax)] at hlength
  cases hlength

/-- A plan up to the largest word has its last size there; the sum behind it is no word. -/
example : sizes ⟨18446744073709551613, 2, 18446744073709551615⟩ =
    [18446744073709551613, 18446744073709551615] := by
  cbv

theorem sizes_are_progression_ofTen :
    create 10 5 27 = .ok ⟨10, 5, 27⟩ ∧ sizes ⟨10, 5, 27⟩ ≠ [] ∧
    (sizes ⟨10, 5, 27⟩).length = (27 - 10) / 5 + 1 := by
  obtain ⟨-, -, hlength, -, hcreate, hsome⟩ := sizes_are_progression ⟨10, 5, 27⟩
  have hmade : create 10 5 27 = .ok ⟨10, 5, 27⟩ :=
    (hcreate 10 5 27).2 ⟨rfl, by decide, by decide, by decide⟩
  exact ⟨hmade, hsome 10 5 27 hmade, hlength⟩

end Gauge.Plan
