import Mathlib
import Gauge.Decimal.Reading

/-!
# The literals of floats

A float is written with an optional sign, digits with an optional point and an optional exponent, or
as a word.  The reader accepts this grammar and nothing else, and gives every literal its one value.

## Main definitions

* `Sign`, `Places`, `Exponent`, `Magnitude`, `Word` — the parts of a literal, each with what it
  denotes.
* `Numeral` — an optional sign and digits with an optional point.
* `Literal` — everything that is written as a float.

## Main statements

* `readFloat?_eq_some_iff` — exactly the literals are read.
* `Literal.numeral_iff` — what makes a literal more than a numeral is one of its letters.
-/

namespace Gauge

/-! ## The grammar -/

/-- An optional sign, which is negative for a minus. -/
inductive Sign : List Char → Bool → Prop
  | none : Sign [] false
  | plus : Sign ['+'] false
  | minus : Sign ['-'] true

/-- Digits with an optional point, `digit+ ('.' digit*)? | '.' digit+`, by the digits on both sides
of the point. -/
inductive Places : List Char → List Char → List Char → Prop
  | whole {ds : List Char} (hne : ds ≠ []) (hds : ∀ c ∈ ds, c.isDigit) : Places ds ds []
  | point {ds fs : List Char} (hne : ds ≠ []) (hds : ∀ c ∈ ds, c.isDigit)
      (hfs : ∀ c ∈ fs, c.isDigit) : Places (ds ++ '.' :: fs) ds fs
  | fraction {fs : List Char} (hne : fs ≠ []) (hfs : ∀ c ∈ fs, c.isDigit) : Places ('.' :: fs) [] fs

/-- An optional exponent of ten: its mark, an optional sign and digits. -/
inductive Exponent : List Char → Int → Prop
  | absent : Exponent [] 0
  | present {mark : Char} {sign ds : List Char} {negative : Bool} (hmark : mark = 'e' ∨ mark = 'E')
      (hsign : Sign sign negative) (hne : ds ≠ []) (hds : ∀ c ∈ ds, c.isDigit) :
      Exponent (mark :: (sign ++ ds))
        (if negative then -(digitsValue ds : Int) else digitsValue ds)

/-- The words among the literals, in capital or small letters. -/
inductive Word : List Char → Float → Prop
  | infinite {cs : List Char}
      (h : cs.map Char.toLower = "inf".toList ∨ cs.map Char.toLower = "infinity".toList) :
      Word cs (Float.ofBits infinityBits.toUInt64)
  | notANumber {cs : List Char} (h : cs.map Char.toLower = "nan".toList) : Word cs notANumber

/-- A numeral: an optional sign, and digits with an optional point. -/
inductive Numeral : List Char → Float → Prop
  | mk {sign cs whole fraction : List Char} {negative : Bool} (hsign : Sign sign negative)
      (hplaces : Places cs whole fraction) :
      Numeral (sign ++ cs) (withSign negative (Decimal.ofPlaces whole fraction).toFloat)

/-- A number without a sign: digits with an optional point, and an optional exponent. -/
inductive Magnitude : List Char → Decimal → Prop
  | mk {cs mark whole fraction : List Char} {n : Int} (hplaces : Places cs whole fraction)
      (hexponent : Exponent mark n) :
      Magnitude (cs ++ mark) ((Decimal.ofPlaces whole fraction).shift n)

/-- A literal: an optional sign, and a number or a word. -/
inductive Literal : List Char → Float → Prop
  | number {sign cs : List Char} {negative : Bool} {d : Decimal} (hsign : Sign sign negative)
      (hmagnitude : Magnitude cs d) : Literal (sign ++ cs) (withSign negative d.toFloat)
  | word {sign cs : List Char} {negative : Bool} {x : Float} (hsign : Sign sign negative)
      (hword : Word cs x) : Literal (sign ++ cs) (withSign negative x)

/-! ## Signs -/

/-- A text that does not begin with a sign. -/
def Unsigned (cs : List Char) : Prop := ∀ c ∈ cs.head?, c ≠ '-' ∧ c ≠ '+'

theorem exists_sign (cs : List Char) :
    ∃ sign, Sign sign (splitSign cs).1 ∧ cs = sign ++ (splitSign cs).2 := by
  rw [splitSign.eq_def]
  split
  · exact ⟨_, .minus, rfl⟩
  · exact ⟨_, .plus, rfl⟩
  · exact ⟨_, .none, rfl⟩

theorem Sign.splitSign_append {sign rest : List Char} {negative : Bool} (h : Sign sign negative)
    (hrest : Unsigned rest) : splitSign (sign ++ rest) = (negative, rest) := by
  cases h with
  | plus => rfl
  | minus => rfl
  | none =>
    cases rest with
    | nil => rfl
    | cons c cs =>
      obtain ⟨hminus, hplus⟩ := hrest c rfl
      simp [splitSign, hminus, hplus]

/-! ## Digits -/

section Digits

variable {ds rest : List Char}

/-- A text that does not begin with a digit. -/
def Undigited (cs : List Char) : Prop := ∀ c ∈ cs.head?, ¬ c.isDigit

theorem takeWhile_digits_append (hds : ∀ c ∈ ds, c.isDigit) (hrest : Undigited rest) :
    (ds ++ rest).takeWhile Char.isDigit = ds := by
  rw [List.takeWhile_append_of_pos hds]
  cases rest with
  | nil => simp
  | cons c cs => simp [hrest c rfl]

theorem dropWhile_digits_append (hds : ∀ c ∈ ds, c.isDigit) (hrest : Undigited rest) :
    (ds ++ rest).dropWhile Char.isDigit = rest := by
  rw [List.dropWhile_append_of_pos hds]
  cases rest with
  | nil => simp
  | cons c cs => simp [hrest c rfl]

theorem unsigned_of_digits (hds : ∀ c ∈ ds, c.isDigit) : Unsigned ds := by
  intro c hc
  have hdigit := hds c (List.mem_of_mem_head? hc)
  constructor <;> rintro rfl <;> revert hdigit <;> decide

end Digits

/-! ## Exponents and words -/

theorem readExponent?_eq_some_iff {cs : List Char} {n : Int} :
    readExponent? cs = some n ↔ Exponent cs n := by
  constructor
  · intro h
    cases cs with
    | nil =>
      obtain rfl : 0 = n := Option.some.inj h
      exact .absent
    | cons mark rest =>
      obtain ⟨sign, hsign, hrest⟩ := exists_sign rest
      simp only [readExponent?] at h
      by_cases hok : (mark = 'e' ∨ mark = 'E') ∧ (splitSign rest).2 ≠ [] ∧
          (splitSign rest).2.all Char.isDigit
      · rw [if_pos hok] at h
        obtain rfl := Option.some.inj h
        obtain ⟨hmark, hne, hds⟩ := hok
        have hpresent := Exponent.present hmark hsign hne (List.all_eq_true.1 hds)
        rwa [← hrest] at hpresent
      · rw [if_neg hok] at h
        cases h
  · intro h
    cases h with
    | absent => rfl
    | present hmark hsign hne hds =>
      simp only [readExponent?, hsign.splitSign_append (unsigned_of_digits hds)]
      exact if_pos ⟨hmark, hne, List.all_eq_true.2 hds⟩

theorem readWord?_eq_some_iff {cs : List Char} {x : Float} :
    readWord? cs = some x ↔ Word cs x := by
  constructor
  · intro h
    simp only [readWord?] at h
    by_cases hinfinite : cs.map Char.toLower = "inf".toList ∨
        cs.map Char.toLower = "infinity".toList
    · obtain rfl := Option.some.inj ((if_pos hinfinite).symm.trans h)
      exact .infinite hinfinite
    · replace h := (if_neg hinfinite).symm.trans h
      by_cases hnan : cs.map Char.toLower = "nan".toList
      · obtain rfl := Option.some.inj ((if_pos hnan).symm.trans h)
        exact .notANumber hnan
      · cases (if_neg hnan).symm.trans h
  · intro h
    cases h with
    | infinite h => exact if_pos h
    | notANumber h => simp [readWord?, h]

/-! ## Numbers without a sign -/

/-- A text that goes on neither with a digit nor with a point. -/
def Unplaced (cs : List Char) : Prop := ∀ c ∈ cs.head?, ¬ c.isDigit ∧ c ≠ '.'

theorem Exponent.unplaced {cs : List Char} {n : Int} (h : Exponent cs n) : Unplaced cs := by
  intro c hc
  cases h with
  | absent => cases hc
  | present hmark =>
    obtain rfl := Option.some.inj hc
    rcases hmark with rfl | rfl <;> decide

theorem splitFraction_of_ne {cs : List Char} (h : ∀ c ∈ cs.head?, c ≠ '.') :
    splitFraction cs = ([], cs) := by
  cases cs with
  | nil => rfl
  | cons c rest => simp [splitFraction, h c rfl]

/-- The places in front of an exponent are read as far as they go. -/
theorem Places.readUnsigned?_append {cs rest whole fraction : List Char}
    (h : Places cs whole fraction) (hrest : Unplaced rest) :
    readUnsigned? (cs ++ rest) =
      (readExponent? rest).map fun n => (Decimal.ofPlaces whole fraction).shift n := by
  have hdigit : Undigited rest := fun c hc => (hrest c hc).1
  have hpoint : Undigited ('.' :: (fraction ++ rest)) := by
    rintro c ⟨⟩
    decide
  cases h with
  | whole hne hds =>
    simp only [readUnsigned?, takeWhile_digits_append hds hdigit,
      dropWhile_digits_append hds hdigit, splitFraction_of_ne fun c hc => (hrest c hc).2]
    exact if_neg fun h => hne h.1
  | point hne hds hfs =>
    simp only [List.append_assoc, List.cons_append, readUnsigned?,
      takeWhile_digits_append hds hpoint, dropWhile_digits_append hds hpoint, splitFraction,
      takeWhile_digits_append hfs hdigit, dropWhile_digits_append hfs hdigit]
    exact if_neg fun h => hne h.1
  | fraction hne hfs =>
    have hnone : ∀ c ∈ ([] : List Char), c.isDigit := by simp
    have htake := takeWhile_digits_append hnone hpoint
    have hdrop := dropWhile_digits_append hnone hpoint
    simp only [List.nil_append] at htake hdrop
    simp only [List.cons_append, readUnsigned?, htake, hdrop, splitFraction,
      takeWhile_digits_append hfs hdigit, dropWhile_digits_append hfs hdigit]
    exact if_neg fun h => hne h.2

theorem magnitude_of_readUnsigned? {cs : List Char} {d : Decimal} (h : readUnsigned? cs = some d) :
    Magnitude cs d := by
  have hds : ∀ c ∈ cs.takeWhile Char.isDigit, c.isDigit := fun c hc => List.mem_takeWhile_imp hc
  have hcut : cs = cs.takeWhile Char.isDigit ++ cs.dropWhile Char.isDigit :=
    List.takeWhile_append_dropWhile.symm
  simp only [readUnsigned?] at h
  generalize cs.takeWhile Char.isDigit = ds at hds hcut h
  generalize cs.dropWhile Char.isDigit = after at hcut h
  by_cases hnone : ds = [] ∧ (splitFraction after).1 = []
  · rw [if_pos hnone] at h
    cases h
  · rw [if_neg hnone] at h
    obtain ⟨n, hn, rfl⟩ := Option.map_eq_some_iff.1 h
    have hexponent := readExponent?_eq_some_iff.1 hn
    rw [hcut]
    by_cases hpoint : ∀ c ∈ after.head?, c ≠ '.'
    · rw [splitFraction_of_ne hpoint] at hnone hexponent ⊢
      exact .mk (.whole (fun h => hnone ⟨h, rfl⟩) hds) hexponent
    · obtain ⟨rest, rfl⟩ : ∃ rest, after = '.' :: rest := by
        cases after with
        | nil => simp at hpoint
        | cons c rest => exact ⟨rest, by simpa using hpoint⟩
      have hfs : ∀ c ∈ rest.takeWhile Char.isDigit, c.isDigit :=
        fun c hc => List.mem_takeWhile_imp hc
      -- the point belongs to the places on whichever side the digits stand
      have hplaces : Places (ds ++ '.' :: rest.takeWhile Char.isDigit) ds
          (rest.takeWhile Char.isDigit) := by
        by_cases hempty : ds = []
        · subst hempty
          exact .fraction (fun h => hnone ⟨rfl, h⟩) hfs
        · exact .point hempty hds hfs
      have hmagnitude := Magnitude.mk hplaces hexponent
      rwa [List.append_assoc, List.cons_append, splitFraction,
        List.takeWhile_append_dropWhile] at hmagnitude

/-- **Exactly the numbers without a sign are read as such.** -/
theorem readUnsigned?_eq_some_iff {cs : List Char} {d : Decimal} :
    readUnsigned? cs = some d ↔ Magnitude cs d := by
  refine ⟨magnitude_of_readUnsigned?, ?_⟩
  intro h
  cases h with
  | mk hplaces hexponent =>
    rw [hplaces.readUnsigned?_append hexponent.unplaced, readExponent?_eq_some_iff.2 hexponent]
    rfl

/-! ## Literals -/

section Literals

variable {cs sign whole fraction : List Char} {negative : Bool} {x : Float} {d : Decimal}

/-- Places begin with a digit or a point. -/
theorem Places.exists_head (h : Places cs whole fraction) :
    ∃ c rest, cs = c :: rest ∧ (c.isDigit ∨ c = '.') := by
  cases h with
  | whole hne hds =>
    obtain ⟨c, ds, rfl⟩ := List.exists_cons_of_ne_nil hne
    exact ⟨c, ds, rfl, .inl (hds c List.mem_cons_self)⟩
  | point hne hds =>
    obtain ⟨c, ds, rfl⟩ := List.exists_cons_of_ne_nil hne
    exact ⟨c, _, rfl, .inl (hds c List.mem_cons_self)⟩
  | fraction => exact ⟨'.', _, rfl, .inr rfl⟩

theorem Magnitude.exists_head (h : Magnitude cs d) :
    ∃ c rest, cs = c :: rest ∧ (c.isDigit ∨ c = '.') := by
  cases h with
  | mk hplaces =>
    obtain ⟨c, rest, rfl, hc⟩ := hplaces.exists_head
    exact ⟨c, _, rfl, hc⟩

theorem toNat_lt_of_isDigit {c : Char} (h : c.isDigit) : c.toNat < 0x41 := by
  simp only [Char.isDigit, Bool.and_eq_true, decide_eq_true_eq, UInt32.le_iff_toNat_le] at h
  have hnine : c.toNat ≤ 57 := h.2
  omega

theorem not_isAlpha_of_lt {c : Char} (h : c.toNat < 0x41) : ¬ c.isAlpha := by
  have hval : c.val.toNat < 0x41 := h
  simp only [Char.isAlpha, Char.isUpper, Char.isLower, Bool.or_eq_true, Bool.and_eq_true,
    decide_eq_true_eq, ge_iff_le, UInt32.le_iff_toNat_le]
  rintro (⟨hlo, -⟩ | ⟨hlo, -⟩)
  · exact absurd (Nat.lt_of_le_of_lt hlo hval) (by decide)
  · exact absurd (Nat.lt_of_le_of_lt hlo hval) (by decide)

/-- Words begin with a letter. -/
theorem Word.exists_head (h : Word cs x) : ∃ c rest, cs = c :: rest ∧ c.isAlpha := by
  have hhead {w : List Char} {l : Char} (hw : cs.map Char.toLower = l :: w) (hl : l.isLower) :
      ∃ c rest, cs = c :: rest ∧ c.isAlpha := by
    obtain ⟨c, rest, rfl, hc, -⟩ := List.map_eq_cons_iff.1 hw
    exact ⟨c, rest, rfl, by rwa [← Char.isLower_toLower_eq_isAlpha, hc]⟩
  cases h with
  | infinite h =>
    rcases h with h | h
    · exact hhead h (by decide)
    · exact hhead h (by decide)
  | notANumber h => exact hhead h (by decide)

theorem not_word_of_magnitude (h : Magnitude cs d) : ¬ Word cs x := by
  intro hword
  obtain ⟨c, rest, rfl, hc⟩ := h.exists_head
  obtain ⟨_, _, ⟨⟩, halpha⟩ := hword.exists_head
  rcases hc with hdigit | rfl
  · exact not_isAlpha_of_lt (toNat_lt_of_isDigit hdigit) halpha
  · exact absurd halpha (by decide)

theorem Magnitude.unsigned (h : Magnitude cs d) : Unsigned cs := by
  obtain ⟨c, rest, rfl, hc⟩ := h.exists_head
  rintro _ ⟨⟩
  constructor <;> rintro rfl <;> revert hc <;> decide

theorem Word.unsigned (h : Word cs x) : Unsigned cs := by
  obtain ⟨c, rest, rfl, hc⟩ := h.exists_head
  rintro _ ⟨⟩
  constructor <;> rintro rfl <;> revert hc <;> decide

/-- **Exactly the literals are read as floats.** -/
theorem readFloat?_eq_some_iff : readFloat? cs = some x ↔ Literal cs x := by
  constructor
  · intro h
    obtain ⟨sign, hsign, hcs⟩ := exists_sign cs
    rw [hcs]
    simp only [readFloat?] at h
    obtain ⟨y, hy, rfl⟩ := Option.map_eq_some_iff.1 h
    rcases Option.or_eq_some_iff.1 hy with hword | ⟨-, hnumber⟩
    · exact .word hsign (readWord?_eq_some_iff.1 hword)
    · obtain ⟨d, hd, rfl⟩ := Option.map_eq_some_iff.1 hnumber
      exact .number hsign (readUnsigned?_eq_some_iff.1 hd)
  · intro h
    cases h with
    | number hsign hmagnitude =>
      have hnone : readWord? _ = none :=
        Option.eq_none_iff_forall_ne_some.2 fun _ hy =>
          not_word_of_magnitude hmagnitude (readWord?_eq_some_iff.1 hy)
      simp [readFloat?, hsign.splitSign_append hmagnitude.unsigned, hnone,
        readUnsigned?_eq_some_iff.2 hmagnitude]
    | word hsign hword =>
      simp [readFloat?, hsign.splitSign_append hword.unsigned, readWord?_eq_some_iff.2 hword]

theorem Numeral.literal (h : Numeral cs x) : Literal cs x := by
  cases h with
  | mk hsign hplaces =>
    have hmagnitude := Magnitude.mk hplaces .absent
    simp only [List.append_nil, Decimal.shift, Int.add_zero] at hmagnitude
    exact .number hsign hmagnitude

theorem Sign.eq_or_eq (h : Sign sign negative) {c : Char} (hc : c ∈ sign) : c = '+' ∨ c = '-' := by
  cases h <;> simp_all

/-- Signs, points and digits stand before the letters. -/
theorem Sign.toNat_lt (h : Sign sign negative) : ∀ c ∈ sign, c.toNat < 0x41 := by
  intro c hc
  rcases h.eq_or_eq hc with rfl | rfl <;> decide

theorem Places.toNat_lt (h : Places cs whole fraction) : ∀ c ∈ cs, c.toNat < 0x41 := by
  intro c hc
  have hpoint : '.'.toNat < 0x41 := by decide
  cases h with
  | whole _ hds => exact toNat_lt_of_isDigit (hds c hc)
  | point _ hds hfs =>
    rcases List.mem_append.1 hc with hc | hc
    · exact toNat_lt_of_isDigit (hds c hc)
    · rcases List.mem_cons.1 hc with rfl | hc
      · exact hpoint
      · exact toNat_lt_of_isDigit (hfs c hc)
  | fraction _ hfs =>
    rcases List.mem_cons.1 hc with rfl | hc
    · exact hpoint
    · exact toNat_lt_of_isDigit (hfs c hc)

/-- A numeral has a digit. -/
theorem Numeral.exists_digit (h : Numeral cs x) : ∃ c ∈ cs, c.isDigit := by
  have hfirst {ds : List Char} (hne : ds ≠ []) (hds : ∀ c ∈ ds, c.isDigit) :
      ∃ c ∈ ds, c.isDigit := by
    obtain ⟨c, hc⟩ := List.exists_mem_of_ne_nil ds hne
    exact ⟨c, hc, hds c hc⟩
  cases h with
  | mk hsign hplaces =>
    cases hplaces with
    | whole hne hds =>
      obtain ⟨c, hc, hdigit⟩ := hfirst hne hds
      exact ⟨c, by simp [hc], hdigit⟩
    | point hne hds =>
      obtain ⟨c, hc, hdigit⟩ := hfirst hne hds
      exact ⟨c, by simp [hc], hdigit⟩
    | fraction hne hfs =>
      obtain ⟨c, hc, hdigit⟩ := hfirst hne hfs
      exact ⟨c, by simp [hc], hdigit⟩

/-- **A literal is a numeral exactly if it has no letters**: exponents and words have some. -/
theorem Literal.numeral_iff (h : Literal cs x) : Numeral cs x ↔ ∀ c ∈ cs, ¬ c.isAlpha := by
  constructor
  · intro hnumeral c hc
    cases hnumeral with
    | mk hsign hplaces =>
      refine not_isAlpha_of_lt ?_
      rcases List.mem_append.1 hc with hc | hc
      · exact hsign.toNat_lt c hc
      · exact hplaces.toNat_lt c hc
  · intro hplain
    cases h with
    | number hsign hmagnitude =>
      cases hmagnitude with
      | mk hplaces hexponent =>
        cases hexponent with
        | absent =>
          simp only [List.append_nil, Decimal.shift, Int.add_zero]
          exact .mk hsign hplaces
        | @present mark _ _ _ hmark =>
          have halpha : mark.isAlpha := by rcases hmark with rfl | rfl <;> decide
          exact absurd halpha (hplain mark (by simp))
    | word hsign hword =>
      obtain ⟨c, rest, rfl, hc⟩ := hword.exists_head
      exact absurd hc (hplain c (by simp))

end Literals

end Gauge
