import Gauge.Proofs.Store.Recovery

/-!
# Stores that keep exactly what they accepted

A caller learns from the answers which operations a store accepted.  A store in memory keeps
exactly these.  A spool learns of a sample that is too large for a frame only when the next sample
comes, or when writing ends: then it refuses the wrong operation, and the sample that it had
accepted is lost.

## Main definitions

* `Ledger.credit` — an operation as far as it was accepted.
* `Writer.Faithful` — nothing that was accepted is lost, and nothing that was refused is kept.

## Main statements

* `Writer.faithful_iff` — a store is faithful exactly if it is in memory or every sample fits.
* `Writer.not_faithful_longName` — one user value with a long name is enough to lose a sample.
-/

namespace Gauge

/-! ## A larger table makes a larger archive -/

namespace Archive

theorem namesSize_insertEntry (name : String) (value : Int64) (l : List (String × Int64)) :
    namesSize l ≤ namesSize (Named.insertEntry name value l) := by
  induction l with
  | nil => simp [namesSize]
  | cons e l ih =>
    rw [Named.insertEntry]
    by_cases hlt : name < e.1
    · rw [if_pos hlt, namesSize_cons (name, value)]
      exact Nat.le_add_left _ _
    · rw [if_neg hlt]
      by_cases heq : name = e.1
      · rw [if_pos heq, namesSize_cons, namesSize_cons, heq]
      · rw [if_neg heq, namesSize_cons, namesSize_cons]
        omega

theorem length_insertEntry (name : String) (value : Int64) (l : List (String × Int64)) :
    l.length ≤ (Named.insertEntry name value l).length := by
  induction l with
  | nil => simp
  | cons e l ih =>
    rw [Named.insertEntry]
    split
    · simp
    · split
      · simp
      · simpa using ih

theorem outsideSize_le_namesSize (name : String) (value : Int64) (l : List (String × Int64)) :
    outsideSize name ≤ namesSize (Named.insertEntry name value l) := by
  induction l with
  | nil => simp [Named.insertEntry, namesSize]
  | cons e l ih =>
    rw [Named.insertEntry]
    split
    · rw [namesSize_cons]
      exact Nat.le_add_right _ _
    · split
      · rw [namesSize_cons]
        exact Nat.le_add_right _ _
      · rw [namesSize_cons]
        omega

theorem aligned_le_aligned {m n : Nat} (h : m ≤ n) : aligned m ≤ aligned n := by
  rw [aligned, aligned]
  omega

/-- One more value makes no record smaller. -/
theorem size_le_size_insert (s : Sample) (name : String) (value : Int64) :
    size s.toRecord ≤ size { s with values := s.values.insert name value : Sample }.toRecord := by
  have hnames := aligned_le_aligned (namesSize_insertEntry name value s.values.entries)
  have hlength := length_insertEntry name value s.values.entries
  simp only [size, rootAt, entriesAt, Sample.toRecord, Named.insert, cell]
  omega

end Archive

/-! ## What was accepted -/

namespace Ledger

theorem not_fits_insert {s : Sample} (h : ¬ Fits s) (name : String) (value : Int64) :
    ¬ Fits { s with values := s.values.insert name value } := fun hfits =>
  h ((Archive.size_le_size_insert s name value).trans hfits)

/-- An operation as far as it was accepted: a refused one leaves the samples. -/
def credit (l : Ledger) : Writing → Except StoreFault Unit → Ledger
  | .start millis, _ => { l with noted := some millis }
  | .write values, .ok () =>
    { samples := l.samples ++ [{ start := l.noted.getD 0, values := values }] }
  | .write _, .error _ => { l with noted := none }
  | .attach name value, .ok () =>
    match l.samples.getLast? with
    | none => l
    | some s =>
      { l with samples := l.samples.dropLast ++ [{ s with values := s.values.insert name value }] }
  | .attach .., .error _ => l

def creditAll (l : Ledger) (answered : List (Writing × Except StoreFault Unit)) : Ledger :=
  answered.foldl (fun l e => l.credit e.1 e.2) l

/-- With the answers of a ledger it is the ledger. -/
theorem credit_perform (l : Ledger) (op : Writing) :
    l.credit op (l.perform op).1 = (l.perform op).2 := by
  cases op with
  | start millis => rfl
  | write values => rfl
  | attach name value =>
    rw [perform]
    cases hlast : l.samples.getLast? with
    | none => rfl
    | some s =>
      simp only
      split
      · rfl
      · simp [credit, hlast]

theorem creditAll_performAll (l : Ledger) (ops : List Writing) :
    l.creditAll (ops.zip (performAll perform l ops).1) = (performAll perform l ops).2 := by
  induction ops generalizing l with
  | nil => rfl
  | cons op ops ih =>
    rw [performAll, List.zip_cons_cons, creditAll, List.foldl_cons, credit_perform]
    exact ih _

/-- What is too large once stays too large, whatever comes later. -/
theorem exists_not_fits_credit {l : Ledger} (h : ∃ s ∈ l.samples, ¬ Fits s) (op : Writing)
    (answer : Except StoreFault Unit) : ∃ s ∈ (l.credit op answer).samples, ¬ Fits s := by
  obtain ⟨s, hs, hfits⟩ := h
  cases op with
  | start millis => exact ⟨s, hs, hfits⟩
  | write values =>
    cases answer with
    | ok => exact ⟨s, List.mem_append_left _ hs, hfits⟩
    | error fault => exact ⟨s, hs, hfits⟩
  | attach name value =>
    cases answer with
    | error fault => exact ⟨s, hs, hfits⟩
    | ok =>
      cases hlast : l.samples.getLast? with
      | none => exact ⟨s, by simpa [credit, hlast] using hs, hfits⟩
      | some last =>
        have hsamples := List.dropLast_append_getLast? last hlast
        rw [← hsamples] at hs
        simp only [credit, hlast]
        rcases List.mem_append.1 hs with hs | hs
        · exact ⟨s, List.mem_append_left _ hs, hfits⟩
        · rw [List.mem_singleton.1 hs] at hfits
          exact ⟨_, List.mem_append_right _ List.mem_cons_self, not_fits_insert hfits name value⟩

/-- As long as no operation was refused for its size, what was accepted is the ledger; when one is
refused, a sample that is too large has been accepted. -/
theorem credit_answer (l : Ledger) (op : Writing) (mode : StoreMode) :
    l.credit op (l.answer mode op) = (l.perform op).2 ∨
      ∃ s ∈ (l.credit op (l.answer mode op)).samples, ¬ Fits s := by
  by_cases hfits : ∀ s ∈ l.samples, Fits s
  · left
    rw [answer_of_fits fun _ _ => hfits, credit_perform]
  · right
    push Not at hfits
    exact exists_not_fits_credit hfits op _

theorem creditAll_answers {a l : Ledger} (h : a = l ∨ ∃ s ∈ a.samples, ¬ Fits s)
    (ops : List Writing) (mode : StoreMode) :
    a.creditAll (ops.zip (performAll (performIn mode) l ops).1) = (performAll perform l ops).2 ∨
      ∃ s ∈ (a.creditAll (ops.zip (performAll (performIn mode) l ops).1)).samples, ¬ Fits s := by
  induction ops generalizing a l with
  | nil => exact h
  | cons op ops ih =>
    rw [performAll, List.zip_cons_cons, creditAll, List.foldl_cons]
    refine ih ?_
    rcases h with rfl | h
    · exact credit_answer a op mode
    · exact .inr (exists_not_fits_credit h op _)

end Ledger

/-! ## Faithful stores -/

namespace Writer

/-- The samples of the writes that a new writer accepted, each with the user values that it
accepted after it. -/
def accepted (mode : StoreMode) (ops : List Writing) : List Sample :=
  (({} : Ledger).creditAll (ops.zip (answers mode ops))).samples

/-- The samples that would be read if writing ended now. -/
def recoverable (w : Writer) : Except StoreFault (List (Except StoreFault Sample)) :=
  w.sealed.map Reader.samples

/-- Nothing that was accepted is lost, and nothing that was refused is kept. -/
structure Faithful (mode : StoreMode) (ops : List Writing) : Prop where
  /-- the store can be sealed, and shows exactly what was accepted -/
  recovered : ∃ r, (after mode ops).sealed = .ok r ∧ r.Shows (accepted mode ops)
  count : (after mode ops).count = (accepted mode ops).length
  /-- the accumulators have counted exactly what was accepted -/
  counted : ∀ name, (after mode ops).running? name = tallyOf? (series (accepted mode ops) name)
  /-- a write that is refused leaves everything as it was -/
  refused : ∀ done values rest fault, ops = done ++ .write values :: rest →
    ((after mode done).write values).1 = .error fault →
      ((after mode done).write values).2.recoverable = (after mode done).recoverable ∧
        ((after mode done).write values).2.count = (after mode done).count ∧
        ∀ name, ((after mode done).write values).2.running? name = (after mode done).running? name

theorem accepted_of_answers {mode : StoreMode} {ops : List Writing}
    (h : answers mode ops = (Ledger.run ops).1) :
    accepted mode ops = (Ledger.run ops).2.samples := by
  rw [accepted, h, Ledger.run, Ledger.creditAll_performAll]

theorem answers_buffered (ops : List Writing) : answers .buffered ops = (Ledger.run ops).1 :=
  answers_eq .buffered ops

/-- A store whose samples all fit, or one in memory, refuses no write. -/
theorem write_accepted {mode : StoreMode} {done rest : List Writing} {values : Named Int64}
    (hfits : mode = .buffered ∨
      ∀ s ∈ (Ledger.run (done ++ .write values :: rest)).2.samples, Ledger.Fits s) :
    ((after mode done).write values).1 = .ok () := by
  obtain ⟨hfollows, hmode⟩ := follows_after mode done
  rw [(follows_write hfollows values).1, hmode]
  rcases hfits with rfl | hall
  · rfl
  · have hdone : ∀ s ∈ (Ledger.run done).2.samples, Ledger.Fits s := by
      intro s hs
      refine hall s ?_
      rw [Ledger.run, performAll_append]
      exact (Ledger.prefix_of_write _ values rest).subset hs
    rw [Ledger.answer_of_fits fun _ _ => hdone, Ledger.perform]

/-- A store whose samples all fit, or one in memory, is faithful. -/
theorem faithful_of_fits {mode : StoreMode} {ops : List Writing}
    (hfits : mode = .buffered ∨ ∀ s ∈ (Ledger.run ops).2.samples, Ledger.Fits s) :
    Faithful mode ops := by
  obtain ⟨hfollows, hmode⟩ := follows_after mode ops
  have hanswers : answers mode ops = (Ledger.run ops).1 := by
    rcases hfits with rfl | hall
    · exact answers_buffered ops
    · exact (sealed_after hall mode).1
  have haccepted := accepted_of_answers hanswers
  have hkept : (Ledger.run ops).2.kept mode = (Ledger.run ops).2.samples := by
    rcases hfits with rfl | hall
    · rfl
    · exact Ledger.kept_of_fits hall mode
  have hlast : (after mode ops).mode = .spooled →
      ∀ s, (Ledger.run ops).2.samples.getLast? = some s → Ledger.Fits s := by
    intro hspooled s hs
    rcases hfits with rfl | hall
    · cases hmode.symm.trans hspooled
    · exact hall s (List.mem_of_getLast? hs)
  obtain ⟨r, hsealed, hshows, -⟩ := sealed_of_follows hfollows hlast
  rw [hmode, hkept, ← haccepted] at hshows
  refine ⟨⟨r, hsealed, hshows⟩, ?_, ?_, ?_⟩
  · rw [haccepted]
    refine count_of_follows hfollows ?_
    rw [hmode]
    exact hfits.imp_right fun hall s hs => hall s (List.dropLast_subset _ hs)
  · intro name
    rw [haccepted, running?, hfollows.tallies, Tallies.find?_ofSamples]
  · rintro done values rest fault rfl hrefused
    rw [write_accepted hfits] at hrefused
    cases hrefused

/-- A spool that is faithful has no sample that does not fit. -/
theorem fits_of_faithful {ops : List Writing} (h : Faithful .spooled ops) :
    ∀ s ∈ (Ledger.run ops).2.samples, Ledger.Fits s := by
  obtain ⟨hfollows, hmode⟩ := follows_after .spooled ops
  obtain ⟨r, hsealed, hshows⟩ := h.recovered
  have hlast : ∀ s, (Ledger.run ops).2.samples.getLast? = some s → Ledger.Fits s := by
    intro s hs
    by_contra hfits
    rw [sealed_of_last_not_fits hfollows hmode hs hfits] at hsealed
    cases hsealed
  obtain ⟨r', hsealed', hkept, -⟩ := sealed_of_follows hfollows fun _ => hlast
  rw [hsealed'] at hsealed
  cases hsealed
  -- what is read back always fits, so what was accepted must fit too
  have haccepted : accepted .spooled ops = (Ledger.run ops).2.kept .spooled := by
    have hmap := hshows.samples.symm.trans hkept.samples
    rw [hmode] at hmap
    exact List.map_injective_iff.2 (fun _ _ => Except.ok.inj) hmap
  have hfit : ∀ s ∈ accepted .spooled ops, Ledger.Fits s := by
    intro s hs
    rw [haccepted] at hs
    simpa using (List.mem_filter.1 hs).2
  have hcases := Ledger.creditAll_answers (a := {}) (l := {}) (.inl rfl) ops .spooled
  rw [← answers_eq] at hcases
  rcases hcases with heq | ⟨s, hs, hnot⟩
  · intro s hs
    refine hfit s ?_
    rw [accepted, heq]
    exact hs
  · exact absurd (hfit s hs) hnot

/-- **A store is faithful exactly if it is in memory or every sample fits.** -/
theorem faithful_iff (mode : StoreMode) (ops : List Writing) :
    Faithful mode ops ↔
      mode = .buffered ∨ ∀ s ∈ (Ledger.run ops).2.samples, Ledger.Fits s := by
  constructor
  · intro h
    cases mode with
    | buffered => exact .inl rfl
    | spooled => exact .inr (fits_of_faithful h)
  · exact faithful_of_fits

/-! ### A name that is too long -/

/-- A name of 17,000,000 bytes. -/
def longName : String := String.ofList (List.replicate 17000000 'a')

/-- One sample gets a user value with a long name before the next sample comes. -/
def longNameWritings : List Writing :=
  [.write (.ofList [("m", 1)]), .attach longName 5, .write (.ofList [("m", 2)])]

theorem utf8ByteSize_replicate (n : Nat) :
    (String.ofList (List.replicate n 'a')).utf8ByteSize = n := by
  induction n with
  | zero => rfl
  | succ n ih =>
    rw [List.replicate_succ', String.ofList_append, String.utf8ByteSize_append, ih]
    rfl

/-- A sample with a name that is longer than the largest frame does not fit. -/
theorem not_fits_of_long {name : String} (hlong : FrameFault.largest < name.utf8ByteSize)
    (s : Sample) (value : Int64) :
    ¬ Ledger.Fits { s with values := s.values.insert name value } := by
  have hname := Archive.outsideSize_le_namesSize name value s.values.entries
  have hle := Archive.le_aligned
    (Archive.namesSize (Named.insertEntry name value s.values.entries))
  have houtside : Archive.outsideSize name = name.utf8ByteSize :=
    if_neg (Nat.not_le.2 (lt_trans (by decide) hlong))
  simp only [Ledger.Fits, Frame.Fits, Archive.size, Archive.rootAt, Archive.entriesAt,
    Sample.toRecord, Named.insert]
  omega

/-- Attaching a value under a long name loses the sample, and the write after it is refused. -/
theorem not_faithful_of_long {name : String} (hlong : FrameFault.largest < name.utf8ByteSize) :
    ¬ Faithful .spooled
      [.write (.ofList [("m", 1)]), .attach name 5, .write (.ofList [("m", 2)])] := by
  intro h
  have hne : "m" ≠ name := by
    rintro rfl
    exact absurd hlong (by decide)
  have hnew : (Named.ofList [("m", (1 : Int64))]).contains name = false := by
    simp [Named.contains, Named.find?, Named.ofList, Named.extend, Named.insert,
      Named.insertEntry, Named.lookup, Named.empty, hne]
  set first : Sample := ⟨0, Named.ofList [("m", 1)]⟩ with hfirst
  refine not_fits_of_long hlong first 5 (fits_of_faithful h _ ?_)
  simp [Ledger.run, performAll, Ledger.perform, hnew, hfirst]

theorem not_faithful_longName : ¬ Faithful .spooled longNameWritings := by
  have hsize : longName.utf8ByteSize = 17000000 := utf8ByteSize_replicate _
  have hlong : FrameFault.largest < longName.utf8ByteSize := by
    rw [hsize]
    decide
  exact not_faithful_of_long hlong

end Writer

end Gauge
