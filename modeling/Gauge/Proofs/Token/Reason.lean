import Gauge.Proofs.Suite.Cause
import Gauge.Proofs.Token.Tree

/-!
# Which reason stays

The first reason that is recorded on a token stays there.  A token sees the reason nearest to it,
though: as long as it has none of its own, the reason that it has from a token above it gives way to
that of a later call on any token between the two.  A method that its suite has stopped is reported
under the suite only if the suite has cancelled the token of the method itself.

## Main definitions

* `Forest.Open` — no token from one up to another one has a reason yet.

## Main statements

* `Forest.Sound.reason?_cancel_of_open`, `Forest.Sound.reason?_cancel_of_not_open` — the reason of a
  token after a call on any token.
* `Forest.Sound.stays_iff` — the reason of a token stays if it is recorded on the token itself.
* `Method.status_ne_timedOut_method` — what a method does not report if it was cancelled itself.
* `Forest.own_reason_stays` — all of this together.
-/

namespace Gauge

namespace Forest

variable {f g : Forest} {t u p : Token} {s : Scope}

/-- No token from one up to another one has a reason yet. -/
inductive Open (f : Forest) : Token → Token → Prop
  | self {t : Token} (hnone : (f.tokens.cell t.cell).reason = none) : Open f t t
  | above {t p u : Token} (hnone : (f.tokens.cell t.cell).reason = none) (hmade : (t, p) ∈ f.made)
      (h : Open f p u) : Open f t u

theorem Open.reason_eq_none (h : f.Open t u) : (f.tokens.cell t.cell).reason = none := by
  cases h with
  | self hnone => exact hnone
  | above hnone => exact hnone

theorem Open.under (h : f.Open t u) : f.Under t u := by
  induction h with
  | self => exact .refl
  | above _ hmade _ ih => exact ih.head hmade

theorem Sound.open_of_made (h : f.Sound) (hmade : (t, p) ∈ f.made) :
    f.Open t u ↔ (f.tokens.cell t.cell).reason = none ∧ (t = u ∨ f.Open p u) := by
  constructor
  · intro hopen
    refine ⟨hopen.reason_eq_none, ?_⟩
    cases hopen with
    | self => exact .inl rfl
    | above _ hmade' hopen => exact .inr (h.parent_unique hmade' hmade ▸ hopen)
  · rintro ⟨hnone, rfl | hopen⟩
    · exact .self hnone
    · exact .above hnone hmade hopen

/-! ## One call -/

/-- The own reason of a token after a call on any token. -/
theorem Sound.reason_cancel (h : f.Sound) (ht : t ∈ f.handles) (hu : u ∈ f.handles)
    (scope : Scope) : ((f.tokens.cancel u scope).cell t.cell).reason =
      if t = u then (f.tokens.cell t.cell).reason.or (some scope)
      else (f.tokens.cell t.cell).reason := by
  by_cases htu : t = u
  · subst htu
    rw [if_pos rfl, Tokens.cell_cancel_self scope (h.known t ht)]
  · have hcell : u.cell ≠ t.cell := fun heq => htu (h.told t ht u hu heq.symm)
    rw [if_neg htu, Tokens.cell_cancel_of_ne hcell]

/-- **A call overrules the reason** of the tokens that are open up to its own. -/
theorem Sound.reason?_cancel_of_open (h : f.Sound) (ht : t ∈ f.handles) (hopen : f.Open t u)
    (scope : Scope) : (f.tokens.cancel u scope).reason? t = some scope := by
  have hu := h.mem_handles_of_under ht hopen.under
  induction hopen with
  | self hnone =>
    refine Tokens.reason?_of_own ?_
    rw [h.reason_cancel ht hu, if_pos rfl, hnone, Option.none_or]
  | @above t p u hnone hmade hopen ih =>
    obtain ⟨-, hp, hlink⟩ := h.child _ _ hmade
    rw [Tokens.reason?_of_above hlink, h.reason_cancel ht hu, hnone, ih hp hu]
    split
    · rfl
    · rfl

/-- A call leaves the reason of any other token that has one. -/
theorem Sound.reason?_cancel_of_not_open (h : f.Sound) (ht : t ∈ f.handles) (hu : u ∈ f.handles)
    (hreason : f.tokens.reason? t = some s) (hopen : ¬ f.Open t u) (scope : Scope) :
    (f.tokens.cancel u scope).reason? t = some s := by
  refine h.induction (P := fun t => f.tokens.reason? t = some s → ¬ f.Open t u →
    (f.tokens.cancel u scope).reason? t = some s) ?_ ?_ ht hreason hopen
  · intro t _ habove hreason _
    rw [Tokens.reason?_of_above_nil habove] at hreason
    exact Tokens.reason?_of_own (Tokens.reason_cancel hreason u scope)
  · intro t p hmade ih hreason hopen
    obtain ⟨ht, -, hlink⟩ := h.child t p hmade
    rw [Tokens.reason?_of_above hlink] at hreason
    rw [h.open_of_made hmade] at hopen
    cases hown : (f.tokens.cell t.cell).reason with
    | some own =>
      rw [hown, Option.some_or] at hreason
      exact Tokens.reason?_of_own (Tokens.reason_cancel (hown.trans hreason) u scope)
    | none =>
      rw [hown, Option.none_or] at hreason
      have htu : t ≠ u := fun heq => hopen ⟨hown, .inl heq⟩
      have hp : ¬ f.Open p u := fun hp => hopen ⟨hown, .inr hp⟩
      rw [Tokens.reason?_of_above hlink, h.reason_cancel ht hu, if_neg htu, hown, Option.none_or]
      exact ih hreason hp

/-! ## Any steps -/

/-- Whatever steps follow, the reason of a token stays, or it is that of a token up to which the
first one was open. -/
theorem Sound.reason?_leads (h : f.Sound) (hleads : f.Leads g) (ht : t ∈ f.handles)
    (hreason : f.tokens.reason? t = some s) :
    g.tokens.reason? t = some s ∨
      ∃ u scope, f.Open t u ∧ (g.tokens.cell u.cell).reason = some scope ∧
        g.tokens.reason? t = some scope := by
  refine h.induction (P := fun t => f.tokens.reason? t = some s → g.tokens.reason? t = some s ∨
    ∃ u scope, f.Open t u ∧ (g.tokens.cell u.cell).reason = some scope ∧
      g.tokens.reason? t = some scope) ?_ ?_ ht hreason
  · intro t ht habove hreason
    rw [Tokens.reason?_of_above_nil habove] at hreason
    exact .inl (Tokens.reason?_of_own (h.reason_leads hleads ht hreason))
  · intro t p hmade ih hreason
    obtain ⟨ht, -, hlink⟩ := h.child t p hmade
    rw [Tokens.reason?_of_above hlink] at hreason
    cases hown : (f.tokens.cell t.cell).reason with
    | some own =>
      rw [hown, Option.some_or] at hreason
      exact .inl (Tokens.reason?_of_own (h.reason_leads hleads ht (hown.trans hreason)))
    | none =>
      rw [hown, Option.none_or] at hreason
      cases hlater : (g.tokens.cell t.cell).reason with
      | some scope => exact .inr ⟨t, scope, .self hown, hlater, Tokens.reason?_of_own hlater⟩
      | none =>
        rw [Tokens.reason?_of_above hlink, hlater, Option.none_or]
        refine (ih hreason).imp_right ?_
        rintro ⟨u, scope, hopen, hu, hp⟩
        exact ⟨u, scope, .above hown hmade hopen, hu, hp⟩

/-- **The reason of a token stays**, whatever steps follow, if it is recorded on the token itself,
and only then. -/
theorem Sound.stays_iff (h : f.Sound) (ht : t ∈ f.handles) (hreason : f.tokens.reason? t = some s) :
    (∀ g, f.Leads g → g.tokens.reason? t = some s) ↔ (f.tokens.cell t.cell).reason = some s := by
  constructor
  · intro hstays
    cases hown : (f.tokens.cell t.cell).reason with
    | some own => exact (Tokens.reason?_of_own hown).symm.trans hreason
    | none =>
      -- a call with the other scope overrules the reason
      obtain ⟨other, hother⟩ : ∃ other : Scope, other ≠ s := by
        cases s with
        | method => exact ⟨.suite, by decide⟩
        | suite => exact ⟨.method, by decide⟩
      have hkept := hstays _ (leads_cancel ht other)
      rw [cancel_tokens, h.reason?_cancel_of_open ht (.self hown), Option.some.injEq] at hkept
      exact absurd hkept hother
  · intro hown g hleads
    exact Tokens.reason?_of_own (h.reason_leads hleads ht hown)

end Forest

/-! ## Methods -/

/-- A reason stays where time passes. -/
theorem World.kept_reason {ε : Type} (i : Nat) (s : Scope) :
    World.Kept (ε := ε) fun w => (w.tokens.cell i).reason = some s where
  quiet w v hw _ htokens _ := htokens ▸ hw
  pass w time hw := by
    simp only [passUntil, foldl_ring]
    generalize (w.alarms.partition fun a => a.due ≤ time).1 = alarms
    generalize w.tokens = tokens at hw
    induction alarms generalizing tokens with
    | nil => exact hw
    | cons a alarms ih => exact ih _ (Tokens.reason_cancel hw a.token a.scope)

namespace Method

variable {κ : Type} [Device κ] {m : Method κ} {registry : Registry κ} {token : Token}
  {w v : World (Event κ)} {o : MethodOutcome}

/-- A method leaves the reasons that there are. -/
theorem reason_execute {i : Nat} {s : Scope} (h : m.execute registry token w = .ok o v)
    (hw : (w.tokens.cell i).reason = some s) : (v.tokens.cell i).reason = some s := by
  have hkept : World.Kept (ε := Event κ) fun w => (w.tokens.cell i).reason = some s :=
    World.kept_reason i s
  have hyields : Yields (m.execute registry token) w fun _ v =>
      (v.tokens.cell i).reason = some s := by
    refine yields_execute (fun _ _ => hw) (fun _ _ => hw) fun run workload _ _ => ?_
    have hbegun : ((m.bound.begun token w).tokens.cell i).reason = some s :=
      TimeBound.begun_of_setAlarm hkept hw
    have hwork := keeps_work hkept (fun _ scope hw => Tokens.reason_cancel hw token scope) run
      workload hbegun
    refine (TimeBound.yields_execute hwork).mono ?_
    rintro r v ⟨r', u, hu, -, hleaves⟩
    have hv : (v.tokens.cell i).reason = some s := hleaves.tokens ▸ hu
    cases r with
    | ok answer => exact fun _ => hv
    | error e => exact hv
  exact hyields.of_ok h

/-- **A method whose own token was cancelled for the suite is not reported under its own scope.** -/
theorem status_ne_timedOut_method (hsincere : m.Sincere) (h : m.execute registry token w = .ok o v)
    (hv : (v.tokens.cell token.cell).reason = some .suite) : o.status ≠ .timedOut .method := by
  intro hstatus
  rcases (yields_reported_left hsincere).of_ok h o rfl with ⟨hrefused, -⟩ | ⟨r, u, -, hu, hreported⟩
  · rw [hstatus] at hrefused
    cases hrefused
  · have hreason : u.tokens.reason? token = some .suite := Tokens.reason?_of_own (hu ▸ hv)
    rcases hreported.timedOut.1 hstatus with ⟨-, hne⟩ | ⟨-, hmethod⟩
    · exact hne hreason
    · rw [hreason] at hmethod
      cases hmethod

end Method

/-! ## The law of reasons -/

namespace Forest

variable {f : Forest} {t : Token} {s : Scope}

/-- **The first reason stays where it is recorded.**  The reason that a token has stays for ever
exactly if it is recorded on the token itself.  Otherwise a later call overrules it exactly if the
token is open up to that of the call, and nothing else does.  A method is never reported under its
own scope once the suite is the reason recorded on its own token. -/
theorem own_reason_stays (h : f.Grown) (ht : t ∈ f.handles)
    (hreason : f.tokens.reason? t = some s) :
    ((∀ g, f.Leads g → g.tokens.reason? t = some s) ↔ (f.tokens.cell t.cell).reason = some s) ∧
    (∀ u ∈ f.handles, ∀ scope,
      (f.Open t u → (f.cancel u scope).tokens.reason? t = some scope) ∧
      (¬ f.Open t u → (f.cancel u scope).tokens.reason? t = some s)) ∧
    (∀ g, f.Leads g → g.tokens.reason? t = some s ∨
      ∃ u scope, f.Open t u ∧ (g.tokens.cell u.cell).reason = some scope ∧
        g.tokens.reason? t = some scope) ∧
    (∀ {κ : Type} [Device κ] (m : Method κ) (registry : Registry κ) (w v : World (Event κ))
      (o : MethodOutcome), m.Sincere → w.tokens = f.tokens →
      m.execute registry t w = .ok o v →
      ((f.tokens.cell t.cell).reason = some .suite →
        (v.tokens.cell t.cell).reason = some .suite) ∧
      ((v.tokens.cell t.cell).reason = some .suite → o.status ≠ .timedOut .method)) := by
  refine ⟨h.sound.stays_iff ht hreason, fun u hu scope => ⟨fun hopen => ?_, fun hopen => ?_⟩,
    fun g hleads => h.sound.reason?_leads hleads ht hreason, ?_⟩
  · exact h.sound.reason?_cancel_of_open ht hopen scope
  · exact h.sound.reason?_cancel_of_not_open ht hu hreason hopen scope
  · intro κ _ m registry w v o hsincere hw hexecute
    exact ⟨fun hown => m.reason_execute hexecute (hw ▸ hown),
      m.status_ne_timedOut_method hsincere hexecute⟩

/-- A root that was cancelled for the suite, and a child of it. -/
def suiteCancelled : Forest where
  tokens := { cells := #[{ raised := true, reason := some .suite }, {}] }
  handles := [⟨1, [0]⟩, ⟨0, []⟩]
  made := [(⟨1, [0]⟩, ⟨0, []⟩)]
  asked := [(⟨0, []⟩, .suite)]
  raised := [⟨0, []⟩]

theorem grown_suiteCancelled : suiteCancelled.Grown := by
  have hroot := Relation.ReflTransGen.single (Moves.root (f := {}))
  have hchild := hroot.tail (.child (t := ⟨0, []⟩) (by decide))
  exact hchild.trans (leads_cancel (t := ⟨0, []⟩) (by decide) .suite)

/-- The child has its reason from the root, and so that does not stay. -/
theorem own_reason_stays_suiteCancelled :
    suiteCancelled.tokens.reason? ⟨1, [0]⟩ = some .suite ∧
      ¬ ∀ g, suiteCancelled.Leads g → g.tokens.reason? ⟨1, [0]⟩ = some .suite := by
  have hreason : suiteCancelled.tokens.reason? ⟨1, [0]⟩ = some .suite := by decide
  refine ⟨hreason, fun hstays => ?_⟩
  have hown := (own_reason_stays grown_suiteCancelled (by decide) hreason).1.1 hstays
  exact absurd hown (by decide)

end Forest

namespace Method

/-- A method whose body sleeps longer than its deadline allows. -/
def oversleeping : Method Instrument where
  name := "oversleeping"
  config := { timeout := .ofNanos 100 }
  factory := .ok { body := { script := fun _ => .sleep 1000 } }

/-- A root and a child; the root will be cancelled for the suite half-way to the deadline. -/
def suiteEnding : World (Event Instrument) where
  tokens := { cells := #[{}, {}] }
  alarms := [{ due := 50, token := ⟨0, []⟩, scope := .suite }]

/-- The suite cancels the method while it sleeps, and the deadline of the method passes later. -/
theorem execute_oversleeping : ∃ o v,
    oversleeping.execute .builtins ⟨1, [0]⟩ suiteEnding = .ok o v ∧
      o.status = .timedOut .method ∧ v.clock = 1003 :=
  eq_of_statusAt (by decide +kernel)

end Method

/-- A child that has the reason of the suite from its root, and is cancelled for the method then,
has the reason of the method; and a method that the suite has stopped half-way to its deadline is
reported under its own scope. -/
theorem Forest.not_first_reason_stays :
    suiteCancelled.Grown ∧ ⟨1, [0]⟩ ∈ suiteCancelled.handles ∧
      suiteCancelled.tokens.reason? ⟨1, [0]⟩ = some .suite ∧
      (suiteCancelled.cancel ⟨1, [0]⟩ .method).tokens.reason? ⟨1, [0]⟩ = some .method ∧
      (Method.suiteEnding.passUntil 50).tokens.isCancelled ⟨1, [0]⟩ ∧
      (Method.suiteEnding.passUntil 50).tokens.reason? ⟨1, [0]⟩ = some .suite ∧
      50 < Method.oversleeping.config.timeout.nanos ∧
      ∃ o v, Method.oversleeping.execute .builtins ⟨1, [0]⟩ Method.suiteEnding = .ok o v ∧
        o.status = .timedOut .method := by
  obtain ⟨o, v, hexecute, hstatus, -⟩ := Method.execute_oversleeping
  exact ⟨grown_suiteCancelled, by decide, by decide, by decide, by decide, by decide, by decide, o,
    v, hexecute, hstatus⟩

end Gauge
