import Mathlib
import Gauge.Instrument

/-!
# What a summed counter shows

A device that sums a counter of the machine is started, restarted and stopped in any order.  What it
holds after any calls is told by the calls alone: where the open bracket began, and the sum of the
brackets closed since the last start.

## Main definitions

* `Calls` — calls of a device, each with what the counters of the machine show at it.
* `Calls.sinceStart`, `Calls.opened?`, `Calls.brackets` — what calls say about brackets.
* `Calls.InOrder` — a counter that never goes back from one call to the next.
* `Calls.spanned` — how far a counter has come in the brackets closed since the last start.
* `Device.after` — a device after calls.
* `Accumulator.ofCalls` — what an accumulator holds after calls.

## Main statements

* `toNat_saturatingSum`, `toInt_valueOfWord` — a sum that is cut, and a word as a value.
* `Instrument.after_summed` — a device that sums a counter holds what its calls say.
* `Instrument.summed_shows_brackets` — it shows the sum of the brackets closed since the last start.
-/

namespace Gauge

/-! ## Words -/

/-- A sum of words wraps exactly where it is too large for a word. -/
theorem add_lt_left_iff (a b : UInt64) : a + b < a ↔ UInt64.size ≤ a.toNat + b.toNat := by
  have ha := a.toNat_lt_size
  have hb := b.toNat_lt_size
  rw [UInt64.lt_iff_toNat_lt, UInt64.toNat_add]
  simp only [UInt64.size] at *
  omega

theorem toNat_add_of_not_lt {a b : UInt64} (h : ¬ a + b < a) :
    (a + b).toNat = a.toNat + b.toNat := by
  rw [UInt64.toNat_add]
  exact Nat.mod_eq_of_lt (not_le.1 (mt (add_lt_left_iff a b).2 h))

/-- A sum that is cut is the sum, or the largest word. -/
theorem toNat_saturatingSum (a b : UInt64) :
    (saturatingSum a b).toNat = min (UInt64.size - 1) (a.toNat + b.toNat) := by
  have hlast : (18446744073709551615 : UInt64).toNat = UInt64.size - 1 := rfl
  have hwraps := add_lt_left_iff a b
  rw [saturatingSum]
  split
  · next h =>
    rw [hlast, min_eq_left]
    have := hwraps.1 h
    omega
  · next h =>
    rw [toNat_add_of_not_lt h, min_eq_right]
    have := mt hwraps.2 h
    omega

/-- A word as a value is the word, or the largest value. -/
theorem toInt_valueOfWord (n : UInt64) :
    (valueOfWord n).toInt = min (n.toNat : Int) Int64.maxValue.toInt := by
  have hmax : Int64.maxValue.toInt = 9223372036854775807 := by decide
  rw [valueOfWord, hmax]
  by_cases hsmall : n < 9223372036854775808
  · have hlt : n.toNat < 9223372036854775808 := UInt64.lt_iff_toNat_lt.1 hsmall
    have hbits : 2 * n.toNat < 2 ^ 64 := by omega
    have hvalue : n.toInt64.toInt = (n.toNat : Int) :=
      BitVec.toInt_eq_toNat_of_lt (by simpa using hbits)
    rw [if_pos hsmall, hvalue]
    omega
  · have hle : 9223372036854775808 ≤ n.toNat :=
      not_lt.1 fun hlt => hsmall (UInt64.lt_iff_toNat_lt.2 hlt)
    rw [if_neg hsmall, hmax]
    omega

/-! ## Brackets -/

/-- Calls of a device, each with what the counters of the machine show at it. -/
abbrev Calls := List (Call × Readings)

namespace Calls

variable {calls : Calls}

/-- The calls from the last start on, or all of them if there is no start. -/
def sinceStart : Calls → Calls
  | [] => []
  | c :: calls => if ∃ d ∈ calls, d.1 = .start then sinceStart calls else c :: calls

/-- Where the bracket that is open after some calls began: at the latest start or restart, unless a
stop came behind it. -/
def opened? (calls : Calls) : Option Readings :=
  ((calls.reverse.takeWhile fun c => c.1 ≠ .stop).head?).map (·.2)

/-- The brackets that calls have closed, as what the counters show at both ends: every stop closes
the bracket that the calls before it have left open, if there is one. -/
def brackets (calls : Calls) : List (Readings × Readings) :=
  calls.zipIdx.filterMap fun (c, j) =>
    if c.1 = .stop then (opened? (calls.take j)).map (·, c.2) else none

theorem sinceStart_concat (calls : Calls) (c : Call × Readings) :
    sinceStart (calls ++ [c]) = if c.1 = .start then [c] else sinceStart calls ++ [c] := by
  induction calls with
  | nil => simp [sinceStart]
  | cons d calls ih =>
    rw [List.cons_append, sinceStart, sinceStart, ih]
    by_cases hc : c.1 = .start
    · simp [hc]
    · by_cases hcalls : ∃ d ∈ calls, d.1 = .start
      · simp [hc, hcalls]
      · have hnone : ¬ ∃ d ∈ calls ++ [c], d.1 = .start := by
          simpa [hc] using hcalls
        rw [if_neg hnone, if_neg hc, if_neg hcalls, List.cons_append]

theorem opened?_concat (calls : Calls) (c : Call × Readings) :
    opened? (calls ++ [c]) = if c.1 = .stop then none else some c.2 := by
  rw [opened?, List.reverse_concat, List.takeWhile_cons]
  split <;> simp_all

/-- A call that is no stop closes nothing, and a stop what was left open. -/
theorem brackets_concat (calls : Calls) (c : Call × Readings) :
    brackets (calls ++ [c]) =
      brackets calls ++ if c.1 = .stop then ((opened? calls).map (·, c.2)).toList else [] := by
  rw [brackets, brackets, List.zipIdx_append, List.filterMap_append]
  congr 1
  · -- the calls before a stop are the same, whatever comes behind it
    refine List.filterMap_congr ?_
    rintro ⟨d, j⟩ hd
    have hj : j < calls.length := by simpa using (List.mem_zipIdx hd).2.1
    simp only [List.take_append_of_le_length hj.le]
  · by_cases hc : c.1 = .stop
    · cases ho : opened? calls <;> simp [hc, ho]
    · simp [hc]

/-- The calls before the last start leave no bracket open. -/
theorem opened?_sinceStart (calls : Calls) : opened? (sinceStart calls) = opened? calls := by
  induction calls using List.reverseRecOn with
  | nil => rfl
  | append_singleton calls c _ =>
    rw [sinceStart_concat, opened?_concat]
    split
    · exact opened?_concat [] c
    · exact opened?_concat _ c

theorem sinceStart_suffix (calls : Calls) : sinceStart calls <:+ calls := by
  induction calls with
  | nil => exact List.suffix_rfl
  | cons c calls ih =>
    rw [sinceStart]
    split
    · exact ih.trans (List.suffix_cons c calls)
    · exact List.suffix_rfl

theorem exists_mem_of_opened? {o : Readings} (h : opened? calls = some o) :
    ∃ c ∈ calls, c.2 = o := by
  obtain ⟨c, hc, hco⟩ := Option.map_eq_some_iff.1 h
  have hmem := (List.takeWhile_sublist _).mem (List.mem_of_head? hc)
  exact ⟨c, List.mem_reverse.1 hmem, hco⟩

/-- A counter does not go back from one call to the next. -/
def InOrder (counter : Counter) (calls : Calls) : Prop :=
  calls.Pairwise fun c d => counter.read c.2 ≤ counter.read d.2

/-- A counter that does not go back does not do so in a bracket. -/
theorem InOrder.bracket {counter : Counter} (h : InOrder counter calls) :
    ∀ b ∈ brackets calls, counter.read b.1 ≤ counter.read b.2 := by
  induction calls using List.reverseRecOn with
  | nil => exact fun b hb => by cases hb
  | append_singleton calls c ih =>
    obtain ⟨hcalls, -, hlast⟩ := List.pairwise_append.1 h
    intro b hb
    rw [brackets_concat] at hb
    rcases List.mem_append.1 hb with hb | hb
    · exact ih hcalls b hb
    · split at hb
      · obtain ⟨o, ho, rfl⟩ := Option.map_eq_some_iff.1 (Option.mem_toList.1 hb)
        obtain ⟨d, hd, rfl⟩ := exists_mem_of_opened? ho
        exact hlast d hd c List.mem_cons_self
      · cases hb

/-! ## The sum of the brackets -/

/-- How far a counter has come in a bracket. -/
def span (counter : Counter) (b : Readings × Readings) : Nat :=
  (counter.read b.2).toNat - (counter.read b.1).toNat

/-- How far a counter has come in the brackets closed since the last start. -/
def spanned (counter : Counter) (calls : Calls) : Nat :=
  ((brackets (sinceStart calls)).map (span counter)).sum

theorem spanned_start (counter : Counter) (calls : Calls) (r : Readings) :
    spanned counter (calls ++ [(.start, r)]) = 0 := by
  rw [spanned, sinceStart_concat, if_pos rfl]
  rfl

theorem spanned_restart (counter : Counter) (calls : Calls) (r : Readings) :
    spanned counter (calls ++ [(.restart, r)]) = spanned counter calls := by
  rw [spanned, sinceStart_concat, if_neg (by simp), brackets_concat, if_neg (by simp),
    List.append_nil, spanned]

theorem spanned_stop (counter : Counter) (calls : Calls) (r : Readings) :
    spanned counter (calls ++ [(.stop, r)]) =
      spanned counter calls + ((opened? calls).map fun o => span counter (o, r)).getD 0 := by
  rw [spanned, sinceStart_concat, if_neg (by simp), brackets_concat, if_pos rfl,
    opened?_sinceStart, List.map_append, List.sum_append, spanned]
  cases opened? calls <;> simp

/-- Without a start, the sum only grows. -/
theorem spanned_le_append (counter : Counter) (calls : Calls) {more : Calls}
    (h : ∀ c ∈ more, c.1 ≠ .start) :
    spanned counter calls ≤ spanned counter (calls ++ more) := by
  induction more using List.reverseRecOn with
  | nil => rw [List.append_nil]
  | append_singleton more c ih =>
    have hmore := ih fun d hd => h d (List.mem_append_left _ hd)
    obtain ⟨call, r⟩ := c
    rw [← List.append_assoc]
    cases call with
    | start => exact absurd rfl (h (.start, r) (by simp))
    | restart => rwa [spanned_restart]
    | stop =>
      rw [spanned_stop]
      exact Nat.le_add_right_of_le hmore

end Calls

/-! ## The device after calls -/

def Device.after {κ : Type} [Device κ] (device : κ) (calls : Calls) : Except Panic κ :=
  calls.foldlM (fun d c => c.1.apply d c.2) device

theorem Device.after_append {κ : Type} [Device κ] (device : κ) (calls more : Calls) :
    after device (calls ++ more) = (after device calls).bind (after · more) :=
  List.foldlM_append

/-- What an accumulator holds after calls: where the open bracket began, and the sum of the closed
ones, cut at the largest word. -/
def Accumulator.ofCalls (counter : Counter) (calls : Calls) : Accumulator where
  openedAt := calls.opened?.map counter.read
  total := .ofNat (min (UInt64.size - 1) (calls.spanned counter))

namespace Accumulator

variable {counter : Counter} {calls : Calls}

theorem toNat_total_ofCalls (counter : Counter) (calls : Calls) :
    (ofCalls counter calls).total.toNat = min (UInt64.size - 1) (calls.spanned counter) :=
  UInt64.toNat_ofNat_of_lt' (by simp only [UInt64.size]; omega)

/-- A counter that goes back all the same counts as one that stands still. -/
theorem toNat_difference (opened now : UInt64) :
    (if opened ≤ now then now - opened else 0 : UInt64).toNat = now.toNat - opened.toNat := by
  split
  · next h => exact UInt64.toNat_sub_of_le _ _ h
  · next h =>
    have hlt := UInt64.lt_iff_toNat_lt.1 (UInt64.not_le.1 h)
    exact (Nat.sub_eq_zero_of_le hlt.le).symm

theorem ofCalls_start (counter : Counter) (calls : Calls) (r : Readings) :
    ofCalls counter (calls ++ [(.start, r)]) = (ofCalls counter calls).start (counter.read r) := by
  rw [ofCalls, Calls.spanned_start, Calls.opened?_concat]
  rfl

theorem ofCalls_restart (counter : Counter) (calls : Calls) (r : Readings) :
    ofCalls counter (calls ++ [(.restart, r)]) =
      (ofCalls counter calls).restart (counter.read r) := by
  rw [ofCalls, Calls.spanned_restart, Calls.opened?_concat]
  rfl

/-- Without an open bracket, a stop changes nothing. -/
theorem ofCalls_stop_of_closed (r : Readings) (h : calls.opened? = none) :
    ofCalls counter (calls ++ [(.stop, r)]) = ofCalls counter calls := by
  rw [ofCalls, Calls.spanned_stop, Calls.opened?_concat, h, ofCalls, h]
  rfl

theorem ofCalls_stop_of_opened {o : Readings} (r : Readings) (h : calls.opened? = some o) :
    (ofCalls counter (calls ++ [(.stop, r)])).total =
      saturatingSum (ofCalls counter calls).total
        (if counter.read o ≤ counter.read r then counter.read r - counter.read o else 0) := by
  apply UInt64.toNat_inj.1
  rw [toNat_saturatingSum, toNat_total_ofCalls, toNat_total_ofCalls, toNat_difference,
    Calls.spanned_stop, h]
  simp only [Option.map_some, Option.getD_some, Calls.span]
  omega

theorem ofCalls_stop (counter : Counter) (calls : Calls) (r : Readings) :
    ofCalls counter (calls ++ [(.stop, r)]) = (ofCalls counter calls).stop (counter.read r) := by
  cases h : calls.opened? with
  | none =>
    rw [ofCalls_stop_of_closed r h, stop, ofCalls, h]
    rfl
  | some o =>
    have hopened : (ofCalls counter calls).openedAt = some (counter.read o) := by
      rw [ofCalls, h]
      rfl
    have hclosed : (ofCalls counter (calls ++ [(.stop, r)])).openedAt = none := by
      rw [ofCalls, Calls.opened?_concat]
      rfl
    rw [stop, hopened]
    show _ = Accumulator.mk none _
    rw [← ofCalls_stop_of_opened r h, ← hclosed]

end Accumulator

namespace Instrument

/-- **A device that sums a counter holds what its calls say.** -/
theorem after_summed (counter : Counter) (calls : Calls) :
    Device.after (summed counter {}) calls = .ok (summed counter (.ofCalls counter calls)) := by
  induction calls using List.reverseRecOn with
  | nil => rfl
  | append_singleton calls c ih =>
    obtain ⟨call, r⟩ := c
    rw [Device.after_append, ih]
    cases call with
    | start =>
      rw [Accumulator.ofCalls_start]
      rfl
    | restart =>
      rw [Accumulator.ofCalls_restart]
      rfl
    | stop =>
      rw [Accumulator.ofCalls_stop]
      rfl

theorem value_ofCalls (counter : Counter) (calls : Calls) :
    (Accumulator.ofCalls counter calls).value.toInt =
      min Int64.maxValue.toInt (min (UInt64.size - 1) (calls.spanned counter) : Nat) := by
  rw [Accumulator.value, toInt_valueOfWord, Accumulator.toNat_total_ofCalls, min_comm]

/-- **A device that sums a counter shows its closed brackets.**  After any calls its value is the
sum of the brackets closed since the last start, cut at the largest word and at the largest value.
Where the counter never goes back, no bracket does.  A stop changes nothing where no bracket is
open, an open bracket counts for nothing, the value is never negative, and only a start lets it
fall. -/
theorem summed_shows_brackets (counter : Counter) (calls : Calls) :
    ∃ i : Instrument, Device.after (summed counter {}) calls = .ok i ∧
      (Device.value i).toInt =
        min Int64.maxValue.toInt
          (min (UInt64.size - 1) (calls.sinceStart.brackets.map (Calls.span counter)).sum : Nat) ∧
      (calls.InOrder counter →
        ∀ b ∈ calls.sinceStart.brackets, counter.read b.1 ≤ counter.read b.2) ∧
      (calls.opened? = none → ∀ r, Device.stop i r = .ok i) ∧
      (∀ r, Device.value (Device.restart i r) = Device.value i) ∧
      (∀ r, Device.value (Device.start i r) = 0) ∧
      (∀ more : Calls, (∀ c ∈ more, c.1 ≠ .start) →
        ∃ j, Device.after i more = .ok j ∧ Device.value i ≤ Device.value j) ∧
      0 ≤ Device.value i := by
  refine ⟨summed counter (.ofCalls counter calls), after_summed counter calls,
    value_ofCalls counter calls, ?inOrder, ?closed, fun r => rfl, fun r => rfl, ?grows, ?positive⟩
  case inOrder =>
    intro h
    exact Calls.InOrder.bracket (h.sublist calls.sinceStart_suffix.sublist)
  case closed =>
    intro h r
    have hstop := Accumulator.ofCalls_stop counter calls r
    rw [Accumulator.ofCalls_stop_of_closed r h] at hstop
    exact congrArg (Except.ok ∘ summed counter) hstop.symm
  case grows =>
    intro more hmore
    have hafter := after_summed counter (calls ++ more)
    rw [Device.after_append, after_summed] at hafter
    refine ⟨_, hafter, Int64.le_iff_toInt_le.2 ?_⟩
    have hle := Calls.spanned_le_append counter calls hmore
    show (Accumulator.value _).toInt ≤ (Accumulator.value _).toInt
    rw [value_ofCalls, value_ofCalls]
    omega
  case positive =>
    refine Int64.le_iff_toInt_le.2 ?_
    have hmax : Int64.maxValue.toInt = 9223372036854775807 := by decide
    show (0 : Int64).toInt ≤ (Accumulator.value _).toInt
    rw [value_ofCalls, hmax]
    have hzero : (0 : Int64).toInt = 0 := by decide
    omega

/-- A start and a stop, two restarts, and a stop for both of them. -/
def restarted : Calls :=
  [(.start, ⟨10, 0, 0, 0⟩), (.stop, ⟨14, 0, 0, 0⟩), (.restart, ⟨30, 0, 0, 0⟩),
    (.restart, ⟨40, 0, 0, 0⟩), (.stop, ⟨45, 0, 0, 0⟩)]

theorem summed_shows_brackets_restarted :
    restarted.InOrder .elapsed ∧ restarted.opened? = none ∧
    ∃ i : Instrument, Device.after (summed .elapsed {}) restarted = .ok i ∧
      (Device.value i).toInt = 4 + 5 ∧
      (∀ b ∈ restarted.sinceStart.brackets, b.1.elapsed ≤ b.2.elapsed) ∧
      (∀ r, Device.stop i r = .ok i) ∧
      ∃ j, Device.after i [(.stop, ⟨50, 0, 0, 0⟩)] = .ok j ∧ Device.value i ≤ Device.value j := by
  have horder : restarted.InOrder .elapsed := by
    unfold Calls.InOrder
    decide
  obtain ⟨i, hafter, hvalue, hbrackets, hstop, -, -, hgrows, -⟩ :=
    summed_shows_brackets .elapsed restarted
  exact ⟨horder, rfl, i, hafter, hvalue.trans (by decide), hbrackets horder, hstop rfl,
    hgrows _ (by decide)⟩

end Instrument

end Gauge
