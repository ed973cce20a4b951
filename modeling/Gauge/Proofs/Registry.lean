import Gauge.Registry
import Gauge.Proofs.Named

/-!
# Registering and creating collectors

An identifier keeps the constructor that it was registered with first.  A set of collectors is
created in two ways.  Strictly, the first identifier that gives no collector is the fault.
Leniently, identifiers whose constructors fail are left out, and only one that is not registered is
a fault.

## Main definitions

* `Registry.registered` — a registry after calls that register constructors.
* `Registry.makes`, `Registry.Refuses` — whether an identifier gives a collector, and why it gives
  none.
* `Registry.made` — the collectors of a set, without those that fail.

## Main statements

* `find?_registered` — after any calls an identifier has its first constructor.
* `instantiateStrict_eq_ok_iff`, `instantiateStrict_eq_error_iff` — what is created strictly.
* `instantiate_eq_error_iff`, `instantiate_eq_strict` — what is created leniently.
* `instantiations_agree` — both ways over any history of a registry.
-/

namespace Gauge.Registry

variable {κ : Type} {r : Registry κ} {id : String} {c : Collector κ} {fault : RegistryFault}
  {set : CollectorSet} {collectors : List (Collector κ)}

/-! ## Registering -/

/-- A registry after calls that register constructors.  A call that is refused changes nothing. -/
def registered (r : Registry κ) (calls : List (String × Constructor κ)) : Registry κ :=
  calls.foldl (fun r call => (r.register call.1 call.2).toOption.getD r) r

/-- Only an identifier that is taken is refused. -/
theorem register_eq_error_iff {c : Constructor κ} :
    r.register id c = .error fault ↔ r.contains id ∧ fault = .duplicate id := by
  rw [register]
  by_cases h : r.contains id
  · simp [h, eq_comm]
  · simp [h]

/-- One call gives an identifier its constructor, if it has none yet. -/
theorem find?_registered_singleton (call : String × Constructor κ) :
    (r.registered [call]).constructors.find? id =
      (r.constructors.find? id).or (if id = call.1 then some call.2 else none) := by
  simp only [registered, List.foldl_cons, List.foldl_nil, register]
  by_cases htaken : r.contains call.1
  · obtain ⟨c, hc⟩ := Option.isSome_iff_exists.1 htaken
    by_cases heq : id = call.1
    · simp [htaken, heq, hc, Except.toOption]
    · simp [htaken, heq, Except.toOption]
  · have hnone : r.constructors.find? call.1 = none :=
      Named.contains_eq_false_iff.1 (Bool.eq_false_iff.2 htaken)
    by_cases heq : id = call.1
    · simp [htaken, heq, hnone, Except.toOption]
    · simp [htaken, heq, Except.toOption]

/-- After any calls an identifier has the constructor that it had, and otherwise that of the first
call that named it. -/
theorem find?_registered (r : Registry κ) (calls : List (String × Constructor κ)) (id : String) :
    (r.registered calls).constructors.find? id =
      (r.constructors.find? id).or (calls.lookup id) := by
  induction calls generalizing r with
  | nil => simp [registered]
  | cons call calls ih =>
    have hstep : r.registered (call :: calls) = (r.registered [call]).registered calls := rfl
    rw [hstep, ih, find?_registered_singleton, Option.or_assoc, List.lookup_cons]
    by_cases heq : id = call.1
    · simp [heq]
    · rw [if_neg heq, Option.none_or, beq_eq_false_iff_ne.2 heq]

/-! ## One identifier -/

/-- Whether an identifier is registered with a constructor that succeeds. -/
def makes (r : Registry κ) (id : String) : Bool :=
  match r.constructors.find? id with
  | some (.ok _) => true
  | _ => false

/-- Why an identifier gives no collector. -/
inductive Refuses (r : Registry κ) (id : String) : RegistryFault → Prop
  | unknown (h : ¬ r.contains id) : Refuses r id (.unknown id)
  | failing {chain : List String} (h : r.constructors.find? id = some (.error chain)) :
      Refuses r id (.instantiation id chain)

theorem create_eq_ok_iff : r.create id = .ok c ↔ r.constructors.find? id = some (.ok c) := by
  rw [create]
  split <;> simp_all

theorem create_eq_error_iff : r.create id = .error fault ↔ r.Refuses id fault := by
  constructor
  · intro h
    rw [create] at h
    split at h
    · next hnone =>
      cases h
      exact .unknown (by simp [contains, Named.contains, hnone])
    · cases h
    · next hfailing =>
      cases h
      exact .failing hfailing
  · rintro (h | h)
    · have hnone : r.constructors.find? id = none := by
        simpa [contains, Named.contains] using h
      simp [create, hnone]
    · simp [create, h]

theorem makes_iff : r.makes id ↔ ∃ c, r.constructors.find? id = some (.ok c) := by
  rw [makes]
  split <;> simp_all

theorem contains_of_makes (h : r.makes id) : r.contains id := by
  obtain ⟨c, hc⟩ := makes_iff.1 h
  simp [contains, Named.contains, hc]

/-- An identifier that gives no collector has a reason. -/
theorem makes_eq_false_iff : r.makes id = false ↔ ∃ fault, r.create id = .error fault := by
  rw [Bool.eq_false_iff, ne_eq, makes_iff]
  cases h : r.create id with
  | ok c => simp [create_eq_ok_iff.1 h]
  | error fault => simp [← create_eq_ok_iff, h]

/-! ## Sets, strictly -/

theorem instantiateStrict_cons (r : Registry κ) (id : String) (ids : CollectorSet) :
    r.instantiateStrict (id :: ids) =
      (r.create id).bind fun c => (r.instantiateStrict ids).map (c :: ·) := by
  rw [instantiateStrict, List.mapM_cons]
  cases r.create id with
  | error fault => rfl
  | ok c =>
    cases h : ids.mapM r.create <;>
      simp [instantiateStrict, h, bind, Except.bind, Except.map, pure, Except.pure]

/-- **Strict creation succeeds when every identifier gives a collector**, and these are the result,
in the order of the set and as often as they stand there. -/
theorem instantiateStrict_eq_ok_iff :
    r.instantiateStrict set = .ok collectors ↔
      List.Forall₂ (fun id c => r.constructors.find? id = some (.ok c)) set collectors := by
  induction set generalizing collectors with
  | nil =>
    cases collectors <;> simp [instantiateStrict, pure, Except.pure]
  | cons id ids ih =>
    rw [instantiateStrict_cons]
    cases hid : r.create id with
    | error fault =>
      have hnone : ∀ c, r.constructors.find? id ≠ some (.ok c) := by
        intro c hc
        simp [create_eq_ok_iff.2 hc] at hid
      cases collectors <;> simp [Except.bind, hnone]
    | ok c =>
      have hc := create_eq_ok_iff.1 hid
      cases hids : r.instantiateStrict ids with
      | error fault =>
        cases collectors <;> simp [Except.bind, Except.map, ← ih, hids]
      | ok made =>
        cases collectors <;> simp [Except.bind, Except.map, ← ih, hids, hc]

theorem exists_instantiateStrict_iff :
    (∃ collectors, r.instantiateStrict set = .ok collectors) ↔ ∀ id ∈ set, r.makes id := by
  simp only [instantiateStrict_eq_ok_iff, makes_iff]
  induction set with
  | nil => simp
  | cons id ids ih => simp [List.forall₂_cons_left_iff, ← ih]

/-- **Strict creation fails for the first identifier that gives no collector.** -/
theorem instantiateStrict_eq_error_iff :
    r.instantiateStrict set = .error fault ↔
      ∃ id, set.find? (fun i => !r.makes i) = some id ∧ r.Refuses id fault := by
  induction set with
  | nil => simp [instantiateStrict, pure, Except.pure]
  | cons id ids ih =>
    rw [instantiateStrict_cons]
    cases hid : r.create id with
    | error f =>
      have hmakes := makes_eq_false_iff.2 ⟨f, hid⟩
      simp [Except.bind, hmakes, ← create_eq_error_iff, hid]
    | ok c =>
      have hmakes := makes_iff.2 ⟨c, create_eq_ok_iff.1 hid⟩
      rw [List.find?_cons_of_neg (by simp [hmakes]), ← ih]
      cases r.instantiateStrict ids <;> simp [Except.bind, Except.map]

/-! ## Sets, leniently -/

/-- Where the constructor of an identifier fails, the rest of the set decides. -/
theorem instantiate_cons_of_contains (h : r.contains id) (ids : CollectorSet) :
    r.instantiate (id :: ids) =
      if r.makes id then (r.create id).bind fun c => (r.instantiate ids).map (c :: ·)
      else r.instantiate ids := by
  rw [instantiate]
  cases hid : r.create id with
  | ok c => simp [makes_iff.2 ⟨c, create_eq_ok_iff.1 hid⟩, Except.bind]
  | error f =>
    have hmakes := makes_eq_false_iff.2 ⟨f, hid⟩
    cases create_eq_error_iff.1 hid with
    | unknown hnot => exact absurd h hnot
    | failing hfailing => simp [hmakes]

theorem instantiate_cons_of_not_contains (h : ¬ r.contains id) (ids : CollectorSet) :
    r.instantiate (id :: ids) = .error (.unknown id) := by
  rw [instantiate, create_eq_error_iff.2 (.unknown h)]

/-- **Lenient creation gives what strict creation gives for the identifiers whose constructors
succeed**, where all are registered. -/
theorem instantiate_eq_strict (h : ∀ id ∈ set, r.contains id) :
    r.instantiate set = r.instantiateStrict (set.filter r.makes) := by
  induction set with
  | nil => rfl
  | cons id ids ih =>
    have hids := ih fun i hi => h i (List.mem_cons_of_mem _ hi)
    rw [instantiate_cons_of_contains (h id List.mem_cons_self), List.filter_cons, hids]
    by_cases hmakes : r.makes id
    · rw [if_pos hmakes, if_pos hmakes, instantiateStrict_cons]
    · rw [if_neg hmakes, if_neg hmakes]

/-- **Lenient creation fails for the first identifier that is not registered**, also where a
constructor in front of it fails. -/
theorem instantiate_eq_error_iff :
    r.instantiate set = .error fault ↔
      ∃ id, set.find? (fun i => !r.contains i) = some id ∧ fault = .unknown id := by
  induction set with
  | nil => simp [instantiate]
  | cons id ids ih =>
    by_cases hid : r.contains id
    · rw [instantiate_cons_of_contains hid, List.find?_cons_of_neg (by simp [hid]), ← ih]
      by_cases hmakes : r.makes id
      · obtain ⟨c, hc⟩ := makes_iff.1 hmakes
        rw [if_pos hmakes, create_eq_ok_iff.2 hc]
        cases r.instantiate ids <;> simp [Except.bind, Except.map]
      · rw [if_neg hmakes]
    · rw [instantiate_cons_of_not_contains hid, List.find?_cons_of_pos (by simp [hid])]
      simp [eq_comm]

/-- What is created strictly is created leniently, too. -/
theorem instantiate_of_instantiateStrict (h : r.instantiateStrict set = .ok collectors) :
    r.instantiate set = .ok collectors := by
  have hmakes := exists_instantiateStrict_iff.1 ⟨collectors, h⟩
  rw [instantiate_eq_strict fun id hid => contains_of_makes (hmakes id hid),
    List.filter_eq_self.2 hmakes, h]

/-- The collectors of a set, without the identifiers whose constructors fail. -/
def made (r : Registry κ) (set : CollectorSet) : List (Collector κ) :=
  set.filterMap fun id => (r.create id).toOption

theorem made_cons (r : Registry κ) (id : String) (ids : CollectorSet) :
    r.made (id :: ids) = (r.create id).toOption.toList ++ r.made ids := by
  cases h : r.create id <;> simp [made, h, Except.toOption]

theorem instantiate_of_contains (h : ∀ id ∈ set, r.contains id) :
    r.instantiate set = .ok (r.made set) := by
  induction set with
  | nil => rfl
  | cons id ids ih =>
    have hids := ih fun i hi => h i (List.mem_cons_of_mem _ hi)
    rw [instantiate_cons_of_contains (h id List.mem_cons_self), hids, made_cons]
    cases hid : r.create id with
    | ok c =>
      rw [if_pos (makes_iff.2 ⟨c, create_eq_ok_iff.1 hid⟩)]
      rfl
    | error fault =>
      rw [makes_eq_false_iff.2 ⟨fault, hid⟩]
      rfl

/-- Lenient creation succeeds where all identifiers are registered. -/
theorem instantiate_eq_ok_iff :
    r.instantiate set = .ok collectors ↔ (∀ id ∈ set, r.contains id) ∧ r.made set = collectors := by
  constructor
  · intro h
    have hall : ∀ id ∈ set, r.contains id := by
      intro id hid
      by_contra hnot
      have hsome : (set.find? fun i => !r.contains i).isSome :=
        List.find?_isSome.2 ⟨id, hid, by simpa using hnot⟩
      obtain ⟨first, hfirst⟩ := Option.isSome_iff_exists.1 hsome
      simp [instantiate_eq_error_iff.2 ⟨first, hfirst, rfl⟩] at h
    rw [instantiate_of_contains hall] at h
    exact ⟨hall, Except.ok.inj h⟩
  · rintro ⟨hall, rfl⟩
    exact instantiate_of_contains hall

/-! ## Both ways -/

/-- **The two ways of creating a set of collectors agree where they should**, in a registry that any
calls have led to.  A call is refused exactly when its identifier is taken; it changes nothing then,
and no identifier ever changes its constructor.  Strict creation succeeds exactly when every
identifier gives a collector, with these collectors in the order of the set, and fails otherwise for
the first one that gives none.  Lenient creation fails exactly for the first identifier that is not
registered, and gives otherwise what strict creation gives for the identifiers whose constructors
succeed; so that both give the same collectors where strict creation succeeds. -/
theorem instantiations_agree (start : Registry κ) (calls : List (String × Constructor κ))
    (set : CollectorSet) :
    let r := start.registered calls
    ((∀ id c fault, r.register id c = .error fault ↔ r.contains id ∧ fault = .duplicate id) ∧
      (∀ id c fault, r.register id c = .error fault → r.registered [(id, c)] = r) ∧
      (∀ id c, r.constructors.find? id = some c →
        ∀ more, (start.registered (calls ++ more)).constructors.find? id = some c)) ∧
    ((∀ collectors, r.instantiateStrict set = .ok collectors ↔
        List.Forall₂ (fun id c => r.constructors.find? id = some (.ok c)) set collectors) ∧
      ((∃ collectors, r.instantiateStrict set = .ok collectors) ↔ ∀ id ∈ set, r.makes id) ∧
      (∀ fault, r.instantiateStrict set = .error fault ↔
        ∃ id, set.find? (fun i => !r.makes i) = some id ∧ r.Refuses id fault)) ∧
    ((∀ fault, r.instantiate set = .error fault ↔
        ∃ id, set.find? (fun i => !r.contains i) = some id ∧ fault = .unknown id) ∧
      ((∀ id ∈ set, r.contains id) →
        r.instantiate set = r.instantiateStrict (set.filter r.makes) ∧
        ∃ collectors, r.instantiate set = .ok collectors) ∧
      (∀ collectors, r.instantiateStrict set = .ok collectors →
        r.instantiate set = .ok collectors)) := by
  intro r
  refine ⟨⟨fun id c fault => register_eq_error_iff, ?_, ?_⟩,
    ⟨fun collectors => instantiateStrict_eq_ok_iff, exists_instantiateStrict_iff,
      fun fault => instantiateStrict_eq_error_iff⟩,
    ⟨fun fault => instantiate_eq_error_iff, ?_, fun collectors => instantiate_of_instantiateStrict⟩⟩
  · intro id c fault h
    simp [registered, h, Except.toOption]
  · intro id c h more
    have hmore : start.registered (calls ++ more) = r.registered more := List.foldl_append
    rw [hmore, find?_registered, h, Option.some_or]
  · intro hall
    have hstrict := instantiate_eq_strict hall
    refine ⟨hstrict, ?_⟩
    rw [hstrict]
    refine exists_instantiateStrict_iff.2 ?_
    intro id hid
    exact (List.mem_filter.1 hid).2

/-- The library's collectors with one more, whose constructor fails; elapsed time is refused. -/
theorem instantiations_agree_builtins :
    let r := builtins.registered
      [("counters", .error ["no counters"]), (elapsedTime, .error ["no clock"])]
    let set := ["counters", elapsedTime, peakMemory, elapsedTime]
    (r.register elapsedTime (.error ["no clock"])).toOption.isNone ∧
      (∀ id ∈ set, r.contains id) ∧
      r.instantiate set = r.instantiateStrict [elapsedTime, peakMemory, elapsedTime] ∧
      ∃ collectors, r.instantiate set = .ok collectors := by
  intro r set
  have hagree := instantiations_agree builtins
    [("counters", .error ["no counters"]), (elapsedTime, .error ["no clock"])] set
  have hall : ∀ id ∈ set, r.contains id := by decide
  exact ⟨by decide, hall, hagree.2.2.2.1 hall⟩

end Gauge.Registry
