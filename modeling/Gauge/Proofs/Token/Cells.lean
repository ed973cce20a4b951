import Mathlib
import Gauge.Token

/-!
# The cells of tokens

What making a token, and each of the two steps of cancelling one, does to every cell, and what
cancelling does to what a token sees.

## Main statements

* `Tokens.cell_push`, `Tokens.cell_size` — a new token has an empty cell and touches no other one.
* `Tokens.cell_record_self`, `Tokens.cell_raise_self`, `Tokens.cell_cancel_self` — the cell of a
  token that is being cancelled.
* `Tokens.isCancelled_cancel` — no token is less cancelled afterwards.
-/

namespace Gauge.Tokens

variable {s : Tokens} {t token : Token} {i : Nat}

/-! ## New tokens -/

/-- A new token does not touch the others. -/
theorem cell_push (tokens : Tokens) (i : Nat) :
    ({ cells := tokens.cells.push {} } : Tokens).cell i = tokens.cell i := by
  simp only [cell, Array.getElem?_push]
  split
  · next h => simp [h]
  · rfl

theorem cell_size (tokens : Tokens) : tokens.cell tokens.cells.size = {} := by
  simp [cell]

/-- What is not a new cell is one that there is. -/
theorem lt_size_of_cell_ne (h : s.cell i ≠ {}) : i < s.cells.size := by
  by_contra hmissing
  exact h (by simp [cell, Array.getElem?_eq_none (not_lt.1 hmissing)])

/-! ## The two steps of cancelling -/

@[simp] theorem size_record (s : Tokens) (t : Token) (scope : Scope) :
    (s.record t scope).cells.size = s.cells.size := by
  simp [record]

@[simp] theorem size_raise (s : Tokens) (t : Token) : (s.raise t).cells.size = s.cells.size := by
  simp [raise]

theorem size_cancel (s : Tokens) (t : Token) (scope : Scope) :
    (s.cancel t scope).cells.size = s.cells.size := by
  simp [cancel]

theorem cell_record_of_ne (h : t.cell ≠ i) (scope : Scope) :
    (s.record t scope).cell i = s.cell i := by
  simp [cell, record, Array.getElem?_modify, h]

theorem cell_raise_of_ne (h : t.cell ≠ i) : (s.raise t).cell i = s.cell i := by
  simp [cell, raise, Array.getElem?_modify, h]

theorem cell_cancel_of_ne (h : t.cell ≠ i) (scope : Scope) :
    (s.cancel t scope).cell i = s.cell i :=
  (cell_raise_of_ne h).trans (cell_record_of_ne h scope)

/-- The first reason of a cell stays. -/
theorem cell_record_self (scope : Scope) (h : t.cell < s.cells.size) :
    (s.record t scope).cell t.cell =
      { s.cell t.cell with reason := (s.cell t.cell).reason.or (some scope) } := by
  simp only [cell, record, Array.getElem?_modify, if_true, Array.getElem?_eq_getElem h,
    Option.map_some, Option.getD_some]

theorem cell_raise_self (h : t.cell < s.cells.size) :
    (s.raise t).cell t.cell = { s.cell t.cell with raised := true } := by
  simp only [cell, raise, Array.getElem?_modify, if_true, Array.getElem?_eq_getElem h,
    Option.map_some, Option.getD_some]

/-- A cell that is cancelled keeps its first reason. -/
theorem cell_cancel_self (scope : Scope) (h : t.cell < s.cells.size) :
    (s.cancel t scope).cell t.cell =
      { raised := true, reason := (s.cell t.cell).reason.or (some scope) } := by
  rw [cancel, cell_raise_self (by rwa [size_record]), cell_record_self scope h]

/-- A recorded reason raises nothing. -/
theorem raised_record (s : Tokens) (t : Token) (scope : Scope) (i : Nat) :
    ((s.record t scope).cell i).raised = (s.cell i).raised := by
  simp only [cell, record, Array.getElem?_modify]
  split
  · cases s.cells[i]? <;> rfl
  · rfl

theorem raised_raise (h : t.cell < s.cells.size) :
    ((s.raise t).cell i).raised ↔ (s.cell i).raised ∨ t.cell = i := by
  by_cases hi : t.cell = i
  · subst hi
    simp [cell_raise_self h]
  · simp [cell_raise_of_ne hi, hi]

/-! ## What a token sees of it -/

/-- The first step of cancelling is not seen. -/
theorem isCancelled_record (s : Tokens) (t : Token) (scope : Scope) (token : Token) :
    (s.record t scope).isCancelled token = s.isCancelled token := by
  simp only [isCancelled, raised_record]

/-- The second step is seen by all tokens below. -/
theorem isCancelled_raise (h : t.cell < s.cells.size) (token : Token) :
    (s.raise t).isCancelled token ↔ s.isCancelled token ∨ t.cell ∈ token.path := by
  simp only [isCancelled, List.any_eq_true, raised_raise h]
  grind

theorem raised_cancel (h : (s.cell i).raised) (t : Token) (scope : Scope) :
    ((s.cancel t scope).cell i).raised := by
  by_cases hi : t.cell = i
  · subst hi
    have hknown : t.cell < s.cells.size := lt_size_of_cell_ne fun hnew => by simp [hnew] at h
    rw [cell_cancel_self scope hknown]
  · rwa [cell_cancel_of_ne hi]

/-- Cancelling a token leaves every reason that there is. -/
theorem reason_cancel {reason : Scope} (h : (s.cell i).reason = some reason) (t : Token)
    (scope : Scope) : ((s.cancel t scope).cell i).reason = some reason := by
  by_cases hi : t.cell = i
  · subst hi
    have hknown : t.cell < s.cells.size := lt_size_of_cell_ne fun hnew => by simp [hnew] at h
    rw [cell_cancel_self scope hknown, h, Option.some_or]
  · rwa [cell_cancel_of_ne hi]

/-- Cancelling a token leaves no token less cancelled. -/
theorem isCancelled_cancel (h : s.isCancelled t) (u : Token) (scope : Scope) :
    (s.cancel u scope).isCancelled t := by
  rw [isCancelled, List.any_eq_true] at h ⊢
  obtain ⟨i, hi, hraised⟩ := h
  exact ⟨i, hi, raised_cancel hraised u scope⟩

/-- To cancel a token that is not above another one does not cancel the other one. -/
theorem isCancelled_cancel_of_not_mem (h : t.cell ∉ token.path) (scope : Scope) :
    (s.cancel t scope).isCancelled token = s.isCancelled token := by
  rw [Bool.eq_iff_iff, isCancelled, isCancelled, List.any_eq_true, List.any_eq_true]
  refine exists_congr fun i => and_congr_right fun hi => ?_
  rw [cell_cancel_of_ne (fun heq => h (heq ▸ hi)) scope]

theorem isCancelled_cancel_of_mem (hcell : t.cell ∈ token.path) (hknown : t.cell < s.cells.size)
    (scope : Scope) : (s.cancel t scope).isCancelled token := by
  rw [cancel, isCancelled_raise (by rwa [size_record])]
  exact .inr hcell

/-! ## A token and the one it was made from -/

/-- The own reason of a token is the nearest one. -/
theorem reason?_of_own {reason : Scope} (h : (s.cell t.cell).reason = some reason) :
    s.reason? t = some reason := by
  rw [reason?, Token.path, List.findSome?_cons, h]

theorem reason?_of_above_nil (h : t.above = []) : s.reason? t = (s.cell t.cell).reason := by
  rw [reason?, Token.path, h, List.findSome?_singleton]

theorem reason?_of_above {parent : Token} (h : t.above = parent.path) :
    s.reason? t = (s.cell t.cell).reason.or (s.reason? parent) := by
  rw [reason?, Token.path, List.findSome?_cons, h, reason?]
  cases (s.cell t.cell).reason <;> rfl

end Gauge.Tokens
