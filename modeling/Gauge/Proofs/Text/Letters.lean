import Mathlib
import Gauge.Text.Alphabetic
import Gauge.Text.Lower

/-!
# Letters and their case

The letters of ASCII are alphabetic, and nothing of ASCII that stands before them is.  Lower-casing
knows all of Unicode; for the letters that the names of units are made of it comes down to the case
of ASCII, since no other character has one of them as its small letter.

## Main definitions

* `CaseRun.Reaches` — a run of capitals that has a character among its small letters.
* `unitLetters` — the letters of the names of units.

## Main statements

* `isAlphabetic_of_isAlpha`, `not_isAlphabetic_of_lt` — ASCII among the alphabetic characters.
* `lowerChar_eq_singleton_iff`, `lowerAfter_eq_iff` — what is lowered to a letter and to a word.
-/

namespace Gauge

theorem CodePoints.contains_iff {s : CodePoints} {c : Char} :
    s.contains c ↔ ∃ r ∈ s.ranges.toList, r.1 ≤ c.toNat ∧ c.toNat ≤ r.2 := by
  simp [contains, ← Array.any_toList]

namespace Text

/-! ## Alphabetic characters -/

/-- A letter of ASCII is alphabetic. -/
theorem isAlphabetic_of_isAlpha {c : Char} (h : c.isAlpha) : isAlphabetic c := by
  have hupper : (0x41, 0x5a) ∈ alphabetic.ranges.toList := by decide +kernel
  have hlower : (0x61, 0x7a) ∈ alphabetic.ranges.toList := by decide +kernel
  simp only [Char.isAlpha, Char.isUpper, Char.isLower, Bool.or_eq_true, Bool.and_eq_true,
    decide_eq_true_eq, UInt32.le_iff_toNat_le, ge_iff_le] at h
  rcases h with ⟨hlo, hhi⟩ | ⟨hlo, hhi⟩
  · exact CodePoints.contains_iff.2 ⟨_, hupper, hlo, hhi⟩
  · exact CodePoints.contains_iff.2 ⟨_, hlower, hlo, hhi⟩

theorem alphabetic_starts : ∀ r ∈ alphabetic.ranges.toList, 0x41 ≤ r.1 := by
  decide +kernel

/-- What stands before the letters of ASCII is not alphabetic: digits, points and signs. -/
theorem not_isAlphabetic_of_lt {c : Char} (h : c.toNat < 0x41) : ¬ isAlphabetic c := by
  intro hc
  obtain ⟨r, hr, hlo, -⟩ := CodePoints.contains_iff.1 hc
  have hstart := alphabetic_starts r hr
  omega

/-! ## Lower case -/

/-- The run has the character between its first and its last small letter. -/
def CaseRun.Reaches (r : CaseRun) (l : Char) : Prop :=
  (r.first : Int) + r.shift ≤ l.toNat ∧ (l.toNat : Int) ≤ r.last + r.shift

instance (r : CaseRun) (l : Char) : Decidable (r.Reaches l) :=
  inferInstanceAs (Decidable (_ ∧ _))

/-- What a character is lowered to by itself: two characters for the dotted capital I, the small
letter of the run that holds it, or itself. -/
theorem lowerChar_cases (c : Char) :
    lowerChar c = ['i', Char.ofNat 0x307] ∧ c.toNat = 0x130 ∨
      lowerChar c = [c] ∨
      ∃ r ∈ capitals.toList, r.first ≤ c.toNat ∧ c.toNat ≤ r.last ∧
        lowerChar c = [Char.ofNat (c.toNat + r.shift).toNat] := by
  by_cases hdotted : c.toNat = 0x130
  · exact .inl ⟨if_pos hdotted, hdotted⟩
  · right
    rw [lowerChar, if_neg hdotted, ← Array.find?_toList]
    cases hr : capitals.toList.find? _ with
    | none => exact .inl rfl
    | some r =>
      have hfound := List.find?_some hr
      simp only [Bool.and_eq_true, decide_eq_true_eq] at hfound
      exact .inr ⟨r, List.mem_of_find?_eq_some hr, hfound.1.1, hfound.1.2, rfl⟩

def unitLetters : List Char := ['n', 's', 'u', 'µ', 'm', 'i', 'h']

/-- What a test says of each of the letters.  As a statement on characters it could not be decided,
since that goes through all of them. -/
theorem forall_unitLetter {p : Char → Prop} [DecidablePred p]
    (h : unitLetters.all fun l => decide (p l)) : ∀ l ∈ unitLetters, p l :=
  fun l hl => of_decide_eq_true (List.all_eq_true.1 h l hl)

/-- Only the capitals of ASCII have small letters among those of units. -/
theorem reaches_unitLetter : ∀ l ∈ unitLetters, ∀ r ∈ capitals.toList, r.Reaches l →
    r.first = 0x41 ∧ r.last = 0x5a ∧ r.shift = 32 :=
  forall_unitLetter (by decide +kernel)

theorem toLower_unitLetter : ∀ l ∈ unitLetters, l.toLower = l :=
  forall_unitLetter (by decide)

theorem toNat_unitLetter :
    ∀ l ∈ unitLetters, 0 < l.toNat ∧ l.toNat < 0x100 ∧ l.toUpper.toNat < 0x100 :=
  forall_unitLetter (by decide)

theorem lowerChar_unitLetter :
    ∀ l ∈ unitLetters, lowerChar l = [l] ∧ lowerChar l.toUpper = [l] :=
  forall_unitLetter (by decide +kernel)

theorem isAlphabetic_unitLetter :
    ∀ l ∈ unitLetters, isAlphabetic l ∧ isAlphabetic l.toUpper :=
  forall_unitLetter (by decide +kernel)

/-- A small letter comes from itself and from its capital only. -/
theorem eq_or_eq_toUpper {c l : Char} (h : c.toLower = l) : c = l ∨ c = l.toUpper := by
  subst h
  by_cases hc : c.isUpper
  · right
    rw [Char.toUpper_toLower_eq_toUpper,
      Char.toUpper_eq_of_not_isLower (Char.not_isLower_of_isUpper hc)]
  · exact .inl (Char.toLower_eq_of_not_isUpper hc).symm

/-- The letters of units are alphabetic in either case. -/
theorem isAlphabetic_of_toLower {c : Char} (h : c.toLower ∈ unitLetters) : isAlphabetic c := by
  obtain ⟨hlower, hupper⟩ := isAlphabetic_unitLetter _ h
  generalize hl : c.toLower = l at hlower hupper
  rcases eq_or_eq_toUpper hl with rfl | rfl
  · exact hlower
  · exact hupper

/-- A capital of a run whose small letter is one of a unit is a capital of ASCII. -/
theorem toLower_of_run {c l : Char} {r : CaseRun} (hl : l ∈ unitLetters) (hr : r ∈ capitals.toList)
    (hlo : r.first ≤ c.toNat) (hhi : c.toNat ≤ r.last)
    (hsmall : Char.ofNat (c.toNat + r.shift).toNat = l) : c.toLower = l := by
  have hpos := (toNat_unitLetter l hl).1
  have hnat : (l.toNat : Int) = c.toNat + r.shift := by
    have hofNat := Char.toNat_ofNat (c.toNat + r.shift).toNat
    rw [hsmall] at hofNat
    by_cases hvalid : (c.toNat + r.shift).toNat.isValidChar
    · rw [if_pos hvalid] at hofNat
      omega
    · rw [if_neg hvalid] at hofNat
      omega
  obtain ⟨hfirst, hlast, hshift⟩ := reaches_unitLetter l hl r hr (by constructor <;> omega)
  have hupper : c.isUpper := by
    rw [hfirst] at hlo
    rw [hlast] at hhi
    simpa [Char.isUpper, UInt32.le_iff_toNat_le] using And.intro hlo hhi
  rw [Char.toLower_eq_of_isUpper hupper, ← hsmall, hshift]
  rfl

/-- **Only the letter itself and its capital in ASCII are lowered to a letter of a unit.** -/
theorem lowerChar_eq_singleton_iff {c l : Char} (hl : l ∈ unitLetters) :
    lowerChar c = [l] ↔ c.toLower = l := by
  constructor
  · intro h
    rcases lowerChar_cases c with ⟨hdotted, -⟩ | hself | ⟨r, hr, hlo, hhi, hrun⟩
    · cases hdotted.symm.trans h
    · obtain rfl : c = l := List.singleton_injective (hself.symm.trans h)
      exact toLower_unitLetter c hl
    · exact toLower_of_run hl hr hlo hhi (List.singleton_injective (hrun.symm.trans h))
  · intro h
    rcases eq_or_eq_toUpper h with rfl | rfl
    · exact (lowerChar_unitLetter _ hl).1
    · exact (lowerChar_unitLetter _ hl).2

/-- What the first character of a text becomes: a letter of a unit from this letter in either case,
and otherwise another character or the two of the dotted capital I. -/
theorem lowerAfter_cons (before cs : List Char) (c : Char) :
    ∃ small, lowerAfter before (c :: cs) = small ++ lowerAfter (c :: before) cs ∧
      ((∃ x, small = [x]) ∨ small = ['i', Char.ofNat 0x307]) ∧
      ∀ l ∈ unitLetters, small = [l] ↔ c.toLower = l := by
  by_cases hsigma : c.toNat = 0x3A3
  · refine ⟨[Char.ofNat (if endsWord before cs then 0x3C2 else 0x3C3)], ?_, .inl ⟨_, rfl⟩, ?_⟩
    · simp only [lowerAfter, if_pos hsigma]
    · intro l hl
      obtain ⟨-, hnat, hupper⟩ := toNat_unitLetter l hl
      constructor
      · intro h
        rw [← List.singleton_injective h] at hnat
        split at hnat <;> exact absurd hnat (by decide)
      · intro h
        rcases eq_or_eq_toUpper h with rfl | rfl <;> omega
  · refine ⟨lowerChar c, ?_, ?_, fun l hl => lowerChar_eq_singleton_iff hl⟩
    · simp only [lowerAfter, if_neg hsigma]
    · rcases lowerChar_cases c with ⟨hdotted, -⟩ | hself | ⟨r, -, -, -, hrun⟩
      · exact .inr hdotted
      · exact .inl ⟨c, hself⟩
      · exact .inl ⟨_, hrun⟩

/-- **A text is lowered to a word in letters of units exactly if it is the word in either case.** -/
theorem lowerAfter_eq_iff {before cs word : List Char} (hword : ∀ l ∈ word, l ∈ unitLetters) :
    lowerAfter before cs = word ↔ cs.map Char.toLower = word := by
  induction cs generalizing before word with
  | nil => rfl
  | cons c cs ih =>
    obtain ⟨small, hlower, hsmall, hletter⟩ := lowerAfter_cons before cs c
    rw [hlower, List.map_cons]
    cases word with
    | nil => rcases hsmall with ⟨x, rfl⟩ | rfl <;> simp
    | cons l word =>
      obtain ⟨hl, hrest⟩ := List.forall_mem_cons.1 hword
      have hcs : lowerAfter (c :: before) cs = word ↔ cs.map Char.toLower = word := ih hrest
      rw [List.cons.injEq, ← hletter l hl, ← hcs]
      rcases hsmall with ⟨x, rfl⟩ | rfl
      · simp
      -- the mark behind the small letter of a dotted capital I is in no word of a unit
      · constructor
        · intro h
          obtain ⟨-, rfl⟩ := List.cons.inj h
          exact absurd (List.forall_mem_cons.1 hrest).1 (by decide)
        · rintro ⟨⟨⟩, -⟩

end Text

end Gauge
