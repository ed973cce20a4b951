import Gauge.Proofs.Run.Spared
import Gauge.Proofs.Token.Tree

/-!
# What a token tells

A token tells whether it is cancelled, and for which scope, and a checkpoint fails if it is.  All of
this is exact in every state that a forest can be in, also between the two steps of a call.

## Main definitions

* `World.Bears` — the tokens of a world are those of a forest.
* `Forest.Exact` — what a token tells is what was done to it and to those above it.

## Main statements

* `World.Bears.pass` — what passes with time are steps of other threads.
* `Forest.exact_of_grown` — every token is exact, whatever steps have led to it.
-/

namespace Gauge

/-! ## Forests in the world -/

/-- Alarms that ring are calls of other threads. -/
theorem Forest.exists_leads_afterAlarms {f : Forest} {alarms : List Alarm}
    (h : ∀ b ∈ alarms, b.token ∈ f.handles) :
    ∃ g, f.Leads g ∧ g.tokens = f.tokens.afterAlarms alarms := by
  induction alarms generalizing f with
  | nil => exact ⟨f, .refl, rfl⟩
  | cons b alarms ih =>
    have hb := leads_cancel (h b List.mem_cons_self) b.scope
    obtain ⟨g, hg, htokens⟩ := ih (f := f.cancel b.token b.scope)
      fun c hc => h c (List.mem_cons_of_mem b hc)
    exact ⟨g, hb.trans hg, htokens⟩

namespace World

variable {ε : Type} {w : World ε} {f : Forest}

/-- A world has the tokens of a forest, and its alarms are set for these. -/
structure Bears (w : World ε) (f : Forest) : Prop where
  tokens : w.tokens = f.tokens
  alarms : ∀ b ∈ w.alarms, b.token ∈ f.handles

/-- What passes with time are steps of other threads. -/
theorem Bears.pass (h : w.Bears f) (time : Nat) :
    ∃ g, f.Leads g ∧ (w.passUntil time).Bears g := by
  have hrings : ∀ b ∈ w.alarms.filter (fun b => b.due ≤ time), b.token ∈ f.handles :=
    fun b hb => h.alarms b (List.mem_filter.1 hb).1
  obtain ⟨g, hg, htokens⟩ := Forest.exists_leads_afterAlarms hrings
  refine ⟨g, hg, ?_⟩
  rw [passUntil_eq]
  constructor
  · rw [htokens, ← h.tokens]
  · exact fun b hb => hg.kept.handles (h.alarms b (List.mem_filter.1 hb).1)

/-- A checkpoint lets a nanosecond pass, and then fails if the token is cancelled. -/
theorem checkpoint_eq (w : World ε) (hwaits : ∀ time ∈ w.horizon, w.clock + 1 < time) (t : Token) :
    let v := ({ w with cpu := w.cpu + 1 } : World ε).passUntil (w.clock + 1)
    checkpoint t w =
      if v.tokens.isCancelled t then .error (.failure .cancelled) v else .ok () v := by
  have htick : tick w = .ok () (({ w with cpu := w.cpu + 1 } : World ε).passUntil
      (w.clock + 1)) := by
    cases hhorizon : w.horizon with
    | none => simp only [tick, goOn, hhorizon]
    | some time => simp only [tick, goOn, hhorizon, hwaits time hhorizon, if_true]
  exact (bind_of_ok htick _).trans (look_eq t _)

theorem Bears.checkpoint (hw : w.Bears f) (hwaits : ∀ time ∈ w.horizon, w.clock + 1 < time)
    (t : Token) :
    ∃ g v, f.Leads g ∧ v.Bears g ∧ ((∀ b ∈ w.alarms, w.clock + 1 < b.due) → g.tokens = f.tokens) ∧
      World.checkpoint t w =
        if g.tokens.isCancelled t then .error (.failure .cancelled) v else .ok () v := by
  have hticked : ({ w with cpu := w.cpu + 1 } : World ε).Bears f := ⟨hw.tokens, hw.alarms⟩
  obtain ⟨g, hg, hv⟩ := hticked.pass (w.clock + 1)
  refine ⟨g, _, hg, hv, fun hquiet => ?_, ?_⟩
  · have hnone : w.alarms.filter (fun b => b.due ≤ w.clock + 1) = [] := by
      rw [List.filter_eq_nil_iff]
      intro b hb
      simpa using hquiet b hb
    rw [← hv.tokens, passUntil_eq, hnone]
    exact hw.tokens
  · rw [← hv.tokens]
    exact checkpoint_eq w hwaits t

end World

/-! ## Exactness -/

namespace Forest

variable {f : Forest} {t : Token}

/-- **A token tells exactly what was done** to it and to the tokens above it. -/
structure Exact (f : Forest) (t : Token) : Prop where
  /-- the flag of a token is raised once a call on it has taken its second step -/
  flag : (f.tokens.cell t.cell).raised ↔ t ∈ f.raised
  cancelled : f.tokens.isCancelled t ↔ ∃ a, f.Under t a ∧ (f.tokens.cell a.cell).raised
  stays : ∀ g, f.Leads g → f.tokens.isCancelled t → g.tokens.isCancelled t
  /-- the first step of a call cancels nothing -/
  unseen : ∀ a scope, (f.tokens.record a scope).isCancelled t = f.tokens.isCancelled t
  /-- the second step cancels the token of the call and those below it, and no other one -/
  reached : ∀ a ∈ f.handles,
    (f.tokens.raise a).isCancelled t ↔ f.tokens.isCancelled t ∨ f.Under t a
  /-- two handles with one cell are handles on the same token -/
  clones : ∀ u ∈ f.handles, u.cell = t.cell → u = t
  /-- the reason of a token is that of the first call that reached it -/
  first : (f.tokens.cell t.cell).reason = f.firstScope? t
  kept : ∀ g, f.Leads g → ∀ scope,
    (f.tokens.cell t.cell).reason = some scope → (g.tokens.cell t.cell).reason = some scope
  told : f.tokens.isCancelled t → (f.tokens.reason? t).isSome
  nearest : ∀ scope, f.tokens.reason? t = some scope ↔ f.Nearest t scope
  /-- a checkpoint fails if the token is cancelled when it looks; the calls that others make until
  then are steps as well -/
  checkpoint : ∀ {ε : Type} (w : World ε), w.Bears f → (∀ time ∈ w.horizon, w.clock + 1 < time) →
    ∃ g v, f.Leads g ∧ v.Bears g ∧ ((∀ b ∈ w.alarms, w.clock + 1 < b.due) → g.tokens = f.tokens) ∧
      World.checkpoint t w =
        if g.tokens.isCancelled t then .error (.failure .cancelled) v else .ok () v

/-- **Every token of a grown forest is exact**: whatever tokens were made, from each other or from
none, and however the steps of the calls that cancel them fell between each other. -/
theorem exact_of_grown (h : f.Grown) (ht : t ∈ f.handles) : f.Exact t where
  flag := h.sound.flag t ht
  cancelled := h.sound.isCancelled_iff ht
  stays _ hg hcancelled := h.sound.isCancelled_leads hg ht hcancelled
  unseen a scope := Tokens.isCancelled_record f.tokens a scope t
  reached a ha := by
    rw [Tokens.isCancelled_raise (h.sound.known a ha), h.sound.cell_mem_path_iff ht ha]
  clones u hu hcell := h.sound.told u hu t ht hcell
  first := h.sound.reason t ht
  kept _ hg _ hown := h.sound.reason_leads hg ht hown
  told := h.sound.isSome_reason? ht
  nearest _ := h.sound.reason?_iff ht
  checkpoint _ hw hwaits := hw.checkpoint hwaits t

/-! ### A call between its two steps -/

/-- A root, a child and a grandchild.  The child is cancelled by one call; another one is about to
raise the flag of the root. -/
def halfCancelled : Forest where
  tokens :=
    { cells := #[{ reason := some .suite }, { raised := true, reason := some .method }, {}] }
  handles := [⟨2, [1, 0]⟩, ⟨1, [0]⟩, ⟨0, []⟩]
  made := [(⟨2, [1, 0]⟩, ⟨1, [0]⟩), (⟨1, [0]⟩, ⟨0, []⟩)]
  asked := [(⟨0, []⟩, .suite), (⟨1, [0]⟩, .method)]
  pending := [⟨0, []⟩]
  raised := [⟨1, [0]⟩]

theorem grown_halfCancelled : halfCancelled.Grown := by
  have hroot := Relation.ReflTransGen.single (Moves.root (f := {}))
  have hchild := hroot.tail (.child (t := ⟨0, []⟩) (by decide))
  have hgrandchild := hchild.tail (.child (t := ⟨1, [0]⟩) (by decide))
  have hrecord := hgrandchild.tail (.record (t := ⟨0, []⟩) (by decide) .suite)
  exact hrecord.trans (leads_cancel (t := ⟨1, [0]⟩) (by decide) .method)

/-- The grandchild is cancelled for the method, as its parent is; the root is not cancelled yet. -/
theorem exact_of_grown_halfCancelled :
    halfCancelled.Exact ⟨2, [1, 0]⟩ ∧
      halfCancelled.tokens.isCancelled ⟨2, [1, 0]⟩ = true ∧
      halfCancelled.tokens.reason? ⟨2, [1, 0]⟩ = some .method ∧
      halfCancelled.tokens.isCancelled ⟨0, []⟩ = false :=
  ⟨exact_of_grown grown_halfCancelled (by decide), by decide, by decide, by decide⟩

end Forest

end Gauge
