import Mathlib
import Gauge.Duration
import Gauge.Proofs.Decimal.Literal
import Gauge.Proofs.Text.Letters

/-!
# Which texts are durations

A duration is a numeral and the name of a unit.  The reader of numbers knows more than numerals, and
lower-casing more than ASCII; the cut in front of the first letter keeps both away: exponents and
words begin with a letter, so that they end up in the unit, and no unit is named like them.

## Main definitions

* `TimeUnit.names` — the names of a unit.
* `Duration.Cut` — a text cut in front of its first letter.
* `Duration.Spells` — a text that is a numeral and a unit, with the span it denotes.
* `Duration.Refusal` — what is wrong with a text, with the fault that tells it.

## Main statements

* `Duration.parse_eq_ok_iff`, `Duration.parse_eq_error_iff` — the exact outcome for every text.
* `Duration.parse_accepts` — what is accepted, and what never is.
-/

namespace Gauge

/-! ## Names of units -/

namespace TimeUnit

def names : TimeUnit → List String
  | nanosecond => ["ns"]
  | microsecond => ["us", "µs"]
  | millisecond => ["ms"]
  | second => ["s"]
  | minute => ["m", "min"]
  | hour => ["h"]

/-- Names have one unit each.  Only a text without letters has no name at all. -/
theorem ofName?_eq_some_iff {name : String} {unit : TimeUnit} :
    ofName? name = some unit ↔ name ∈ unit.names ∨ name = "" ∧ unit = second := by
  constructor
  · intro h
    simp only [ofName?] at h
    grind [names]
  · intro h
    cases unit <;> simp only [names, List.mem_cons, List.not_mem_nil] at h <;> grind [ofName?]

theorem letters_of_mem_names {name : String} {unit : TimeUnit} (h : name ∈ unit.names) :
    ∀ l ∈ name.toList, l ∈ Text.unitLetters := by
  have hall : unit.names.all fun name => name.toList.all fun l => l ∈ Text.unitLetters := by
    cases unit <;> decide
  intro l hl
  have hletters := List.all_eq_true.1 hall name h
  exact of_decide_eq_true (List.all_eq_true.1 hletters l hl)

end TimeUnit

namespace Duration

open Text

/-! ## The cut -/

/-- A text cut in front of its first letter, and the unit behind the cut: seconds for a text without
letters. -/
inductive Cut : List Char → List Char → List Char → Prop
  | letter {p rest : List Char} {c : Char} (hp : ∀ x ∈ p, ¬ isAlphabetic x) (hc : isAlphabetic c) :
      Cut (p ++ c :: rest) p (c :: rest)
  | bare {p : List Char} (hp : ∀ x ∈ p, ¬ isAlphabetic x) : Cut p p ['s']

section Cut

variable {t p u : List Char}

theorem Cut.plain (h : Cut t p u) : ∀ x ∈ p, ¬ isAlphabetic x := by
  cases h with
  | letter hp => exact hp
  | bare hp => exact hp

theorem Cut.unit_ne_nil (h : Cut t p u) : u ≠ [] := by
  cases h <;> simp

theorem cut_splitUnit (t : List Char) : Cut t (splitUnit t).1 (splitUnit t).2 := by
  have hp : ∀ x ∈ t.takeWhile (!isAlphabetic ·), ¬ isAlphabetic x := by
    intro x hx
    simpa using List.mem_takeWhile_imp hx
  have hcut : t = t.takeWhile (!isAlphabetic ·) ++ t.dropWhile (!isAlphabetic ·) :=
    List.takeWhile_append_dropWhile.symm
  have hhead := List.head?_dropWhile_not (!isAlphabetic ·) t
  rw [splitUnit]
  cases hrest : t.dropWhile (!isAlphabetic ·) with
  | nil =>
    rw [hrest, List.append_nil] at hcut
    rw [← hcut] at hp ⊢
    exact .bare hp
  | cons c rest =>
    rw [hrest] at hcut hhead
    have hletter : Cut (_ ++ c :: rest) _ (c :: rest) := .letter hp (by simpa using hhead)
    rwa [← hcut] at hletter

/-- A text is cut in one way only. -/
theorem Cut.splitUnit_eq (h : Cut t p u) : splitUnit t = (p, u) := by
  have hnot : ∀ x ∈ p, (!isAlphabetic x) = true := fun x hx => by simpa using h.plain x hx
  cases h with
  | letter _ hc =>
    simp only [splitUnit, List.takeWhile_append_of_pos hnot, List.dropWhile_append_of_pos hnot]
    simp [hc]
  | bare =>
    have htake := List.takeWhile_eq_self_iff.2 hnot
    have hdrop := List.dropWhile_eq_nil_iff.2 hnot
    simp only [splitUnit, htake, hdrop]

/-- The cut lies between two characters, so that both sides are texts. -/
theorem Cut.isValid (h : Cut t p u) :
    ∃ rest, t = p ++ rest ∧ (String.ofList p).rawEndPos.IsValid (String.ofList t) := by
  have hprefix : ∃ rest, t = p ++ rest := by
    cases h with
    | letter => exact ⟨_, rfl⟩
    | bare => exact ⟨[], (List.append_nil _).symm⟩
  obtain ⟨rest, rfl⟩ := hprefix
  refine ⟨rest, rfl, String.Pos.Raw.isValid_iff_exists_append.2 ⟨_, String.ofList rest, ?_, rfl⟩⟩
  exact String.ofList_append

end Cut

/-! ## The number in front of the cut -/

theorem mem_of_mem_trimChars {cs : List Char} {c : Char} (h : c ∈ trimChars cs) : c ∈ cs := by
  have hback := (List.dropWhile_suffix _).subset (List.mem_reverse.1 h)
  exact (List.dropWhile_suffix _).subset (List.mem_reverse.1 hback)

/-- In front of a letter every literal is a numeral. -/
theorem Cut.readFloat?_eq_some_iff {t p u : List Char} {x : Float} (h : Cut t p u) :
    readFloat? (trimChars p) = some x ↔ Numeral (trimChars p) x := by
  rw [Gauge.readFloat?_eq_some_iff]
  refine ⟨fun hliteral => hliteral.numeral_iff.2 ?_, Numeral.literal⟩
  intro c hc halpha
  exact h.plain c (mem_of_mem_trimChars hc) (isAlphabetic_of_isAlpha halpha)

theorem Cut.ne_nil_of_numeral {t p u : List Char} {x : Float} (h : Cut t p u)
    (hnumber : Numeral (trimChars p) x) : t ≠ [] := by
  rintro rfl
  obtain ⟨rest, hrest, -⟩ := h.isValid
  obtain ⟨rfl, -⟩ := List.append_eq_nil_iff.1 hrest.symm
  obtain ⟨c, hc, -⟩ := hnumber.exists_digit
  cases mem_of_mem_trimChars hc

/-! ## The unit behind the cut -/

/-- What stands behind the cut has a first letter, which is not lost in lower case. -/
theorem Cut.toLower_ne_empty {t p u : List Char} (h : Cut t p u) :
    toLower (String.ofList u) ≠ "" := by
  obtain ⟨c, cs, rfl⟩ := List.exists_cons_of_ne_nil h.unit_ne_nil
  obtain ⟨small, hlower, hsmall, -⟩ := lowerAfter_cons [] cs c
  rw [toLower, String.toList_ofList, hlower]
  rcases hsmall with ⟨x, rfl⟩ | rfl <;> simp

theorem Cut.ofName?_eq_some_iff {t p u : List Char} {unit : TimeUnit} (h : Cut t p u) :
    TimeUnit.ofName? (toLower (String.ofList u)) = some unit ↔
      toLower (String.ofList u) ∈ unit.names := by
  simp [TimeUnit.ofName?_eq_some_iff, h.toLower_ne_empty]

/-- A unit is named in letters of either case, and in no other way. -/
theorem toLower_mem_names_iff {u : List Char} {unit : TimeUnit} :
    toLower (String.ofList u) ∈ unit.names ↔ String.ofList (u.map Char.toLower) ∈ unit.names := by
  have hlower {name : String} (h : name ∈ unit.names) :
      toLower (String.ofList u) = name ↔ String.ofList (u.map Char.toLower) = name := by
    rw [toLower, String.toList_ofList, ← String.ofList_toList (s := name), String.ofList_inj,
      String.ofList_inj]
    exact lowerAfter_eq_iff (TimeUnit.letters_of_mem_names h)
  constructor
  · intro h
    rwa [(hlower h).1 rfl]
  · intro h
    rwa [(hlower h).2 rfl]

/-! ## What is read -/

/-- A text that is a numeral and a unit, and the span it denotes. -/
def Spells (t : List Char) (d : Duration) : Prop :=
  t ≠ [] ∧ ∃ p u x unit, Cut t p u ∧ Numeral (trimChars p) x ∧ (x.isFinite ∧ ¬ x < 0.0) ∧
    toLower (String.ofList u) ∈ TimeUnit.names unit ∧ ofSeconds? (x * unit.seconds) = some d

/-- What is wrong with a text: the first of the checks that fails. -/
inductive Refusal (t : List Char) : DurationFault → Prop
  | empty (h : t = []) : Refusal t .empty
  | badNumber {p u : List Char} (hne : t ≠ []) (hcut : Cut t p u)
      (h : ∀ x, ¬ Numeral (trimChars p) x) : Refusal t (.badNumber (String.ofList p))
  | badValue {p u : List Char} {x : Float} (hcut : Cut t p u) (hnumber : Numeral (trimChars p) x)
      (h : ¬ (x.isFinite ∧ ¬ x < 0.0)) : Refusal t (.badValue (String.ofList t))
  | unknownUnit {p u : List Char} {x : Float} (hcut : Cut t p u)
      (hnumber : Numeral (trimChars p) x) (hvalue : x.isFinite ∧ ¬ x < 0.0)
      (h : ∀ unit, toLower (String.ofList u) ∉ TimeUnit.names unit) :
      Refusal t (.unknownUnit (String.ofList u))
  | tooLong {p u : List Char} {x : Float} {unit : TimeUnit} (hcut : Cut t p u)
      (hnumber : Numeral (trimChars p) x) (hvalue : x.isFinite ∧ ¬ x < 0.0)
      (hunit : toLower (String.ofList u) ∈ unit.names) (h : ofSeconds? (x * unit.seconds) = none) :
      Refusal t (.tooLong (String.ofList t))

section Parse

variable {input : String} {p u : List Char} {x : Float} {unit : TimeUnit} {d : Duration}
  {fault : DurationFault}

theorem parse_of_empty (h : trimChars input.toList = []) : parse input = .error .empty := by
  simp [parse, h]

theorem parse_of_readFloat?_none (hne : trimChars input.toList ≠ [])
    (hcut : Cut (trimChars input.toList) p u) (h : readFloat? (trimChars p) = none) :
    parse input = .error (.badNumber (String.ofList p)) := by
  simp [parse, hne, hcut.splitUnit_eq, h]

/-- What follows a number that is read: the check of its value, the unit and the span. -/
theorem parse_of_numeral (hcut : Cut (trimChars input.toList) p u)
    (hnumber : Numeral (trimChars p) x) :
    parse input =
      if x.isFinite ∧ ¬ x < 0.0 then
        match TimeUnit.ofName? (toLower (String.ofList u)) with
        | none => .error (.unknownUnit (String.ofList u))
        | some unit =>
          match ofSeconds? (x * unit.seconds) with
          | none => .error (.tooLong (String.ofList (trimChars input.toList)))
          | some d => .ok d
      else .error (.badValue (String.ofList (trimChars input.toList))) := by
  have hvalue : (!x.isFinite || x < 0.0) = !decide (x.isFinite ∧ ¬ x < 0.0) := by
    by_cases hfinite : x.isFinite <;> by_cases hneg : x < 0.0 <;> simp [hfinite, hneg]
  have hne : (trimChars input.toList).isEmpty = false := by
    simpa using hcut.ne_nil_of_numeral hnumber
  simp only [parse, hne, hcut.splitUnit_eq, hcut.readFloat?_eq_some_iff.2 hnumber, hvalue]
  by_cases h : x.isFinite ∧ ¬ x < 0.0
  · rw [if_pos h, decide_eq_true h]
    rfl
  · rw [if_neg h, decide_eq_false h]
    rfl

/-- **Every text that is read spells its span, and every other one is refused for what it lacks.** -/
theorem spells_or_refusal (input : String) :
    (∃ d, parse input = .ok d ∧ Spells (trimChars input.toList) d) ∨
      ∃ fault, parse input = .error fault ∧ Refusal (trimChars input.toList) fault := by
  by_cases hne : trimChars input.toList = []
  · exact .inr ⟨_, parse_of_empty hne, .empty hne⟩
  · have hcut := cut_splitUnit (trimChars input.toList)
    generalize (splitUnit (trimChars input.toList)).1 = p at hcut
    generalize (splitUnit (trimChars input.toList)).2 = u at hcut
    cases hread : readFloat? (trimChars p) with
    | none =>
      refine .inr ⟨_, parse_of_readFloat?_none hne hcut hread, .badNumber hne hcut ?_⟩
      intro x hnumber
      cases hread.symm.trans (hcut.readFloat?_eq_some_iff.2 hnumber)
    | some x =>
      have hnumber := hcut.readFloat?_eq_some_iff.1 hread
      rw [parse_of_numeral hcut hnumber]
      by_cases hvalue : x.isFinite ∧ ¬ x < 0.0
      · rw [if_pos hvalue]
        cases hunit : TimeUnit.ofName? (toLower (String.ofList u)) with
        | none =>
          refine .inr ⟨_, rfl, .unknownUnit hcut hnumber hvalue ?_⟩
          intro unit hmem
          cases hunit.symm.trans (hcut.ofName?_eq_some_iff.2 hmem)
        | some unit =>
          have hmem := hcut.ofName?_eq_some_iff.1 hunit
          cases hspan : ofSeconds? (x * unit.seconds) with
          | none =>
            refine .inr ⟨_, ?_, .tooLong hcut hnumber hvalue hmem hspan⟩
            simp only [hspan]
          | some d =>
            refine .inl ⟨d, ?_, hne, p, u, x, unit, hcut, hnumber, hvalue, hmem, hspan⟩
            simp only [hspan]
      · rw [if_neg hvalue]
        exact .inr ⟨_, rfl, .badValue hcut hnumber hvalue⟩

theorem parse_of_spells (h : Spells (trimChars input.toList) d) : parse input = .ok d := by
  obtain ⟨-, p, u, x, unit, hcut, hnumber, hvalue, hmem, hspan⟩ := h
  rw [parse_of_numeral hcut hnumber, if_pos hvalue, hcut.ofName?_eq_some_iff.2 hmem]
  simp only [hspan]

theorem parse_of_refusal (h : Refusal (trimChars input.toList) fault) :
    parse input = .error fault := by
  cases h with
  | empty h => exact parse_of_empty h
  | badNumber hne hcut h =>
    refine parse_of_readFloat?_none hne hcut ?_
    rw [Option.eq_none_iff_forall_ne_some]
    intro x hx
    exact h x (hcut.readFloat?_eq_some_iff.1 hx)
  | badValue hcut hnumber h => rw [parse_of_numeral hcut hnumber, if_neg h]
  | @unknownUnit _ u _ hcut hnumber hvalue h =>
    have hnone : TimeUnit.ofName? (toLower (String.ofList u)) = none := by
      rw [Option.eq_none_iff_forall_ne_some]
      intro unit hunit
      exact h unit (hcut.ofName?_eq_some_iff.1 hunit)
    rw [parse_of_numeral hcut hnumber, if_pos hvalue, hnone]
  | tooLong hcut hnumber hvalue hunit h =>
    rw [parse_of_numeral hcut hnumber, if_pos hvalue, hcut.ofName?_eq_some_iff.2 hunit]
    simp only [h]

theorem parse_eq_ok_iff : parse input = .ok d ↔ Spells (trimChars input.toList) d := by
  refine ⟨fun h => ?_, parse_of_spells⟩
  rcases spells_or_refusal input with ⟨d', hd, hspells⟩ | ⟨fault, hfault, -⟩
  · cases hd.symm.trans h
    exact hspells
  · cases hfault.symm.trans h

theorem parse_eq_error_iff :
    parse input = .error fault ↔ Refusal (trimChars input.toList) fault := by
  refine ⟨fun h => ?_, parse_of_refusal⟩
  rcases spells_or_refusal input with ⟨d, hd, -⟩ | ⟨fault', hfault, hrefusal⟩
  · cases hd.symm.trans h
  · cases hfault.symm.trans h
    exact hrefusal

end Parse

/-! ## What is never read -/

section Never

variable {t p u : List Char} {d : Duration}

/-- What stands behind the cut of a text that is read names a unit, in letters of either case. -/
theorem Spells.names (h : Spells t d) (hcut : Cut t p u) :
    ∃ unit, String.ofList (u.map Char.toLower) ∈ TimeUnit.names unit := by
  obtain ⟨-, p', u', x, unit, hcut', -, -, hmem, -⟩ := h
  cases hcut'.splitUnit_eq.symm.trans hcut.splitUnit_eq
  exact ⟨unit, toLower_mem_names_iff.1 hmem⟩

theorem Spells.unitLetters (h : Spells t d) (hcut : Cut t p u) :
    ∀ c ∈ u, c.toLower ∈ unitLetters := by
  intro c hc
  obtain ⟨unit, hmem⟩ := h.names hcut
  refine TimeUnit.letters_of_mem_names hmem _ ?_
  rw [String.toList_ofList]
  exact List.mem_map_of_mem hc

theorem Spells.numeral (h : Spells t d) (hcut : Cut t p u) : ∃ x, Numeral (trimChars p) x := by
  obtain ⟨-, p', u', x, unit, hcut', hnumber, -⟩ := h
  cases hcut'.splitUnit_eq.symm.trans hcut.splitUnit_eq
  exact ⟨x, hnumber⟩

theorem Cut.of_toNat_lt {front rest : List Char} {c : Char} (hfront : ∀ x ∈ front, x.toNat < 0x41)
    (hc : c.isAlpha) : Cut (front ++ c :: rest) front (c :: rest) :=
  .letter (fun x hx => not_isAlphabetic_of_lt (hfront x hx)) (isAlphabetic_of_isAlpha hc)

/-- No unit is named in letters like an exponent. -/
theorem not_spells_of_mark {front rest : List Char} {mark : Char} (hmark : mark = 'e' ∨ mark = 'E')
    (hfront : ∀ x ∈ front, x.toNat < 0x41) : ¬ Spells (front ++ mark :: rest) d := by
  intro hspells
  have halpha : mark.isAlpha := by rcases hmark with rfl | rfl <;> decide
  have hletter := hspells.unitLetters (.of_toNat_lt hfront halpha) mark List.mem_cons_self
  revert hletter
  rcases hmark with rfl | rfl <;> decide

/-- A literal that is more than a numeral begins no duration: an exponent begins no unit, and in
front of a word there is no digit. -/
theorem not_spells_of_literal {literal rest : List Char} {x : Float} (h : Literal literal x)
    (hnot : ¬ Numeral literal x) : ¬ Spells (literal ++ rest) d := by
  cases h with
  | @number sign _ _ _ hsign hmagnitude =>
    cases hmagnitude with
    | @mk cs _ _ _ _ hplaces hexponent =>
      cases hexponent with
      | absent =>
        simp only [List.append_nil, Decimal.shift, Int.add_zero] at hnot
        exact absurd (.mk hsign hplaces) hnot
      | @present mark exponentSign ds _ hmark =>
        have hfront : ∀ x ∈ sign ++ cs, x.toNat < 0x41 :=
          List.forall_mem_append.2 ⟨hsign.toNat_lt, hplaces.toNat_lt⟩
        have hnever : ¬ Spells (sign ++ cs ++ mark :: (exponentSign ++ (ds ++ rest))) d :=
          not_spells_of_mark hmark hfront
        simpa only [List.append_assoc, List.cons_append] using hnever
  | word hsign hword =>
    intro hspells
    obtain ⟨c, cs, rfl, hc⟩ := hword.exists_head
    rw [List.append_assoc, List.cons_append] at hspells
    obtain ⟨y, hnumber⟩ := hspells.numeral (.of_toNat_lt hsign.toNat_lt hc)
    obtain ⟨digit, hmem, hdigit⟩ := hnumber.exists_digit
    rcases hsign.eq_or_eq (mem_of_mem_trimChars hmem) with rfl | rfl
    · exact absurd hdigit (by decide)
    · exact absurd hdigit (by decide)

/-- Everything from the first letter on stands behind the cut. -/
theorem Cut.mem_of_letter {front back : List Char} {c : Char} (h : Cut (front ++ c :: back) p u)
    (hc : isAlphabetic c) : ∀ x ∈ back, x ∈ u := by
  intro x hx
  generalize ht : front ++ c :: back = t at h
  cases h with
  | bare hp =>
    subst ht
    exact absurd hc (hp c (by simp))
  | letter hp =>
    rcases List.append_eq_append_iff.1 ht with ⟨as, rfl, hback⟩ | ⟨bs, rfl, hu⟩
    -- the letter is the first one, or it would stand in front of the cut
    · cases as with
      | nil =>
        obtain ⟨rfl, rfl⟩ := List.cons.inj hback
        exact List.mem_cons_of_mem _ hx
      | cons c' as =>
        obtain ⟨rfl, -⟩ := List.cons.inj hback
        exact absurd hc (hp c (by simp))
    · rw [hu]
      exact List.mem_append_right _ (List.mem_cons_of_mem _ hx)

/-- Behind a letter there are only letters. -/
theorem not_spells_of_letter {front back : List Char} {c x : Char} (hc : isAlphabetic c)
    (hx : x ∈ back) (hplain : ¬ isAlphabetic x) : ¬ Spells (front ++ c :: back) d := by
  intro hspells
  have hcut := cut_splitUnit (front ++ c :: back)
  have hletter := hspells.unitLetters hcut x (hcut.mem_of_letter hc x hx)
  exact hplain (isAlphabetic_of_toLower hletter)

end Never

/-! ## Zero -/

theorem digitsValue_of_zeros {ds : List Char} (h : ∀ c ∈ ds, c = '0') : digitsValue ds = 0 := by
  rw [digitsValue]
  induction ds with
  | nil => rfl
  | cons c cs ih =>
    obtain ⟨rfl, hcs⟩ := List.forall_mem_cons.1 h
    exact ih hcs

/-- Zero with a minus is not below zero, and denotes the empty span in every unit. -/
theorem spells_of_zeros {t p u cs whole fraction : List Char} {unit : TimeUnit} (hcut : Cut t p u)
    (hp : trimChars p = '-' :: cs) (hplaces : Places cs whole fraction)
    (hzeros : ∀ c ∈ whole ++ fraction, c = '0') (hunit : toLower (String.ofList u) ∈ unit.names) :
    Spells t (ofNanos 0) := by
  have hzero : (Decimal.ofPlaces whole fraction).toFloat = 0.0 :=
    if_pos (.inl (digitsValue_of_zeros hzeros))
  have hnumber : Numeral (trimChars p) (withSign true 0.0) := by
    rw [hp, ← hzero]
    exact .mk .minus hplaces
  have hvalue : (withSign true 0.0).isFinite ∧ ¬ withSign true 0.0 < 0.0 := by decide +kernel
  refine ⟨hcut.ne_nil_of_numeral hnumber, p, u, _, unit, hcut, hnumber, hvalue, hunit, ?_⟩
  cases unit <;> decide +kernel

/-! ## The whole reader -/

/-- **Exactly the grammar of durations is read**: a numeral and, from the first letter on, a unit in
whatever case, with a value that is finite and not below zero and a span that is not too long.  The
fault of every other text is what is wrong with it.  Literals with an exponent and the words among
the literals begin no duration, behind a letter there are only letters, which name a unit together,
the text is cut between two characters, and zero may have a minus. -/
theorem parse_accepts {input : String} {t : List Char} (ht : trimChars input.toList = t) :
    ((∃ d, parse input = .ok d) ↔ t ≠ [] ∧ ∃ p u x unit, Cut t p u ∧ Numeral (trimChars p) x ∧
      (x.isFinite ∧ ¬ x < 0.0) ∧ toLower (String.ofList u) ∈ TimeUnit.names unit ∧
        ∃ d, ofSeconds? (x * unit.seconds) = some d) ∧
    (∀ fault, parse input = .error fault ↔ Refusal t fault) ∧
    (∀ literal rest x, Literal literal x → ¬ Numeral literal x → t = literal ++ rest →
      ¬ ∃ d, parse input = .ok d) ∧
    (∀ front c back, t = front ++ c :: back → isAlphabetic c → (∃ x ∈ back, ¬ isAlphabetic x) →
      ¬ ∃ d, parse input = .ok d) ∧
    (∀ p u, Cut t p u → (∃ rest, t = p ++ rest ∧
        (String.ofList p).rawEndPos.IsValid (String.ofList t)) ∧
      ∀ d, parse input = .ok d → ∃ unit, String.ofList (u.map Char.toLower) ∈ TimeUnit.names unit) ∧
    ∀ p u cs whole fraction unit, Cut t p u → trimChars p = '-' :: cs → Places cs whole fraction →
      (∀ c ∈ whole ++ fraction, c = '0') → toLower (String.ofList u) ∈ TimeUnit.names unit →
      parse input = .ok (ofNanos 0) := by
  subst ht
  simp only [parse_eq_ok_iff]
  refine ⟨?_, fun _ => parse_eq_error_iff, ?_, ?_, ?_, ?_⟩
  · constructor
    · rintro ⟨d, hne, p, u, x, unit, hcut, hnumber, hvalue, hunit, hspan⟩
      exact ⟨hne, p, u, x, unit, hcut, hnumber, hvalue, hunit, d, hspan⟩
    · rintro ⟨hne, p, u, x, unit, hcut, hnumber, hvalue, hunit, d, hspan⟩
      exact ⟨d, hne, p, u, x, unit, hcut, hnumber, hvalue, hunit, hspan⟩
  · rintro literal rest x h hnot ht ⟨d, hd⟩
    rw [ht] at hd
    exact not_spells_of_literal h hnot hd
  · rintro front c back ht hc ⟨x, hx, hplain⟩ ⟨d, hd⟩
    rw [ht] at hd
    exact not_spells_of_letter hc hx hplain hd
  · intro p u hcut
    exact ⟨hcut.isValid, fun d hd => hd.names hcut⟩
  · intro p u cs whole fraction unit hcut hp hplaces hzeros hunit
    exact spells_of_zeros hcut hp hplaces hzeros hunit

/-- Milliseconds are read from a number and a unit apart, but not from an exponent. -/
theorem parse_accepts_millis :
    trimChars " 1.5 MS".toList = "1.5 MS".toList ∧ (∃ d, parse " 1.5 MS" = .ok d) ∧
      ¬ ∃ d, parse "15e-1ms" = .ok d := by
  have htrim : trimChars " 1.5 MS".toList = "1.5 MS".toList := by decide +kernel
  refine ⟨htrim, (parse_accepts htrim).1.2 ⟨by simp, ?_⟩, ?_⟩
  · have hcut : Cut (['1', '.', '5', ' '] ++ 'M' :: ['S']) ['1', '.', '5', ' '] ['M', 'S'] :=
      .of_toNat_lt (by simp) (by decide)
    have hplaces : Places (['1'] ++ '.' :: ['5']) ['1'] ['5'] :=
      .point (by simp) (by simp) (by simp)
    have hnumber := Numeral.mk .none hplaces
    have hblank : trimChars ['1', '.', '5', ' '] = [] ++ (['1'] ++ '.' :: ['5']) := by
      decide +kernel
    rw [← hblank] at hnumber
    refine ⟨_, _, _, .millisecond, hcut, hnumber, by decide +kernel, ?_, ofNanos 1500000, ?_⟩
    · rw [toLower_mem_names_iff]
      decide +kernel
    · decide +kernel
  · have hexponent : Exponent ('e' :: (['-'] ++ ['1'])) (-1) :=
      .present (.inl rfl) .minus (by simp) (by simp)
    have hliteral : Literal ([] ++ (['1', '5'] ++ 'e' :: (['-'] ++ ['1']))) _ :=
      .number .none (.mk (.whole (by simp) (by simp)) hexponent)
    have htrim : trimChars "15e-1ms".toList = "15e-1ms".toList := by decide +kernel
    refine (parse_accepts htrim).2.2.1 _ ['m', 's'] _ hliteral ?_ rfl
    intro hnumeral
    exact hliteral.numeral_iff.1 hnumeral 'e' (by simp) (by decide)

end Duration

end Gauge
