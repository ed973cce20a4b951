import Gauge.Proofs.Token.Cells

/-!
# Trees of tokens

The threads of a program make tokens, hand them on, and cancel through them.  A call that cancels a
token takes two steps: it records its reason, unless there is one, and then it raises the flag.  The
steps of other calls can fall between these two, in any order.

## Main definitions

* `Forest` — all tokens of a program, with what its threads have done to them.
* `Forest.Moves` — one step of one thread; `Forest.Leads` are the steps of all of them together.
* `Forest.Under`, `Forest.Nearest` — the tokens above a token, and the reason nearest to it.

## Main statements

* `Forest.Sound.moves` — every step keeps the cells in line with what was done.
* `Forest.Sound.isCancelled_iff`, `Forest.Sound.reason?_iff` — what a token sees, through the tokens
  it was made from.
* `Forest.Sound.reason_leads` — the first reason that is recorded on a token stays there.
-/

namespace Gauge

/-- All tokens of a program, with what its threads have done to them.  A clone of a handle is
another handle on the same token. -/
structure Forest where
  tokens : Tokens := {}
  handles : List Token := []
  /-- each child with the token it was made from -/
  made : List (Token × Token) := []
  /-- the reasons that calls came with, in the order of their first steps -/
  asked : List (Token × Scope) := []
  /-- the tokens of the calls between their two steps -/
  pending : List Token := []
  /-- the tokens of the calls that have taken both steps -/
  raised : List Token := []

namespace Forest

variable {f g : Forest} {t a p : Token} {s : Scope}

/-- The first step of a call. -/
def record (f : Forest) (t : Token) (scope : Scope) : Forest :=
  { f with
    tokens := f.tokens.record t scope
    asked := f.asked ++ [(t, scope)]
    pending := t :: f.pending }

/-- The second step of a call. -/
def raise (f : Forest) (t : Token) : Forest :=
  { f with
    tokens := f.tokens.raise t
    pending := f.pending.erase t
    raised := t :: f.raised }

def cancel (f : Forest) (t : Token) (scope : Scope) : Forest := (f.record t scope).raise t

@[simp] theorem cancel_tokens (f : Forest) (t : Token) (scope : Scope) :
    (f.cancel t scope).tokens = f.tokens.cancel t scope := rfl

/-- One step of one thread. -/
inductive Moves (f : Forest) : Forest → Prop
  | root : Moves f
      { f with
        tokens := f.tokens.root.2
        handles := f.tokens.root.1 :: f.handles }
  | child {t : Token} (ht : t ∈ f.handles) : Moves f
      { f with
        tokens := (f.tokens.child t).2
        handles := (f.tokens.child t).1 :: f.handles
        made := ((f.tokens.child t).1, t) :: f.made }
  | clone {t : Token} (ht : t ∈ f.handles) : Moves f { f with handles := t :: f.handles }
  | record {t : Token} (ht : t ∈ f.handles) (scope : Scope) : Moves f (f.record t scope)
  | raise {t : Token} (ht : t ∈ f.pending) : Moves f (f.raise t)

/-- Steps of any threads lead from one forest to another one. -/
def Leads : Forest → Forest → Prop := Relation.ReflTransGen Moves

/-- A forest that grew from nothing. -/
def Grown (f : Forest) : Prop := Leads {} f

/-- A token is another one, or is below it. -/
def Under (f : Forest) : Token → Token → Prop :=
  Relation.ReflTransGen fun t p => (t, p) ∈ f.made

/-- The scope of the first call that reached a token. -/
def firstScope? (f : Forest) (t : Token) : Option Scope :=
  (f.asked.find? fun call => call.1 = t).map (·.2)

/-- The reason nearest to a token: its own one, or else the one nearest to the token it was made
from. -/
inductive Nearest (f : Forest) : Token → Scope → Prop
  | own {t : Token} {s : Scope} (hown : (f.tokens.cell t.cell).reason = some s) : Nearest f t s
  | above {t p : Token} {s : Scope} (hnone : (f.tokens.cell t.cell).reason = none)
      (hmade : (t, p) ∈ f.made) (h : Nearest f p s) : Nearest f t s

/-! ## Cells and what was done to them -/

/-- The cells of a forest are in line with what was done: every handle has a cell of its own, below
those of the token it was made from, with the reason of the first call and the flag of a finished
one. -/
structure Sound (f : Forest) : Prop where
  known : ∀ t ∈ f.handles, t.cell < f.tokens.cells.size
  told : ∀ t ∈ f.handles, ∀ u ∈ f.handles, t.cell = u.cell → t = u
  child : ∀ t p, (t, p) ∈ f.made → t ∈ f.handles ∧ p ∈ f.handles ∧ t.above = p.path
  root : ∀ t ∈ f.handles, t.above ≠ [] → ∃ p, (t, p) ∈ f.made
  called : ∀ call ∈ f.asked, call.1 ∈ f.handles
  begun : ∀ t, t ∈ f.pending ∨ t ∈ f.raised → ∃ scope, (t, scope) ∈ f.asked
  reason : ∀ t ∈ f.handles, (f.tokens.cell t.cell).reason = f.firstScope? t
  flag : ∀ t ∈ f.handles, (f.tokens.cell t.cell).raised ↔ t ∈ f.raised

theorem sound_empty : Sound {} where
  known := by simp
  told := by simp
  child := by simp
  root := by simp
  called := by simp
  begun := by simp
  reason := by simp
  flag := by simp

theorem Sound.mem_handles (h : f.Sound) (ht : t ∈ f.pending ∨ t ∈ f.raised) : t ∈ f.handles := by
  obtain ⟨scope, hscope⟩ := h.begun t ht
  exact h.called _ hscope

theorem firstScope?_eq_none (h : ∀ scope, (t, scope) ∉ f.asked) : f.firstScope? t = none := by
  rw [firstScope?, Option.map_eq_none_iff, List.find?_eq_none]
  intro call hcall heq
  rw [decide_eq_true_eq] at heq
  exact h call.2 (heq ▸ hcall)

theorem isSome_firstScope? {scope : Scope} (h : (t, scope) ∈ f.asked) :
    (f.firstScope? t).isSome := by
  rw [firstScope?, Option.isSome_map, List.find?_isSome]
  exact ⟨_, h, by simp⟩

/-- A new token is sound if its links are: nothing was done to it yet. -/
theorem Sound.push (h : f.Sound) {n : Token} (hn : n.cell = f.tokens.cells.size)
    {made : List (Token × Token)}
    (hchild : ∀ t p, (t, p) ∈ made →
      t ∈ n :: f.handles ∧ p ∈ n :: f.handles ∧ t.above = p.path)
    (hroot : ∀ t ∈ n :: f.handles, t.above ≠ [] → ∃ p, (t, p) ∈ made) :
    Sound
      { f with
        tokens := { cells := f.tokens.cells.push {} }
        handles := n :: f.handles
        made := made } := by
  have hnew : n ∉ f.handles := fun hmem => (h.known n hmem).ne hn
  have hasked (scope : Scope) : (n, scope) ∉ f.asked := fun hmem => hnew (h.called _ hmem)
  refine
    { known := ?known, told := ?told, child := hchild, root := hroot, called := ?called,
      begun := h.begun, reason := ?reason, flag := ?flag }
  case known =>
    intro t ht
    rw [Array.size_push]
    rcases List.mem_cons.1 ht with rfl | ht
    · omega
    · have := h.known t ht
      omega
  case told =>
    intro t ht u hu hcell
    rcases List.mem_cons.1 ht with rfl | ht' <;> rcases List.mem_cons.1 hu with rfl | hu'
    · rfl
    · exact absurd (hcell.symm.trans hn) (h.known u hu').ne
    · exact absurd (hcell.trans hn) (h.known t ht').ne
    · exact h.told t ht' u hu' hcell
  case called => exact fun call hcall => List.mem_cons_of_mem n (h.called call hcall)
  case reason =>
    intro t ht
    rw [Tokens.cell_push]
    rcases List.mem_cons.1 ht with rfl | ht
    · rw [hn, Tokens.cell_size]
      exact (firstScope?_eq_none hasked).symm
    · exact h.reason t ht
  case flag =>
    intro t ht
    rw [Tokens.cell_push]
    rcases List.mem_cons.1 ht with rfl | ht
    · rw [hn, Tokens.cell_size]
      exact iff_of_false Bool.false_ne_true fun hraised => hnew (h.mem_handles (.inr hraised))
    · exact h.flag t ht

theorem Sound.record (h : f.Sound) (ht : t ∈ f.handles) (scope : Scope) :
    (f.record t scope).Sound := by
  unfold Forest.record
  refine
    { known := ?known, told := h.told, child := h.child, root := h.root, called := ?called,
      begun := ?begun, reason := ?reason, flag := ?flag }
  case known => simpa only [Tokens.size_record] using h.known
  case called =>
    intro call hcall
    rcases List.mem_append.1 hcall with hcall | hcall
    · exact h.called call hcall
    · rw [List.mem_singleton.1 hcall]
      exact ht
  case begun =>
    intro u hu
    by_cases htu : u = t
    · exact ⟨scope, by simp [htu]⟩
    · obtain ⟨other, hother⟩ := h.begun u (hu.imp_left (List.mem_of_ne_of_mem htu))
      exact ⟨other, List.mem_append_left _ hother⟩
  case reason =>
    intro u hu
    rw [firstScope?, List.find?_append, Option.map_or, ← firstScope?]
    by_cases htu : t = u
    · subst htu
      rw [Tokens.cell_record_self scope (h.known t ht), h.reason t ht]
      simp
    · have hcell : t.cell ≠ u.cell := fun heq => htu (h.told t ht u hu heq)
      rw [Tokens.cell_record_of_ne hcell, h.reason u hu]
      simp [htu]
  case flag =>
    intro u hu
    rw [Tokens.raised_record]
    exact h.flag u hu

theorem Sound.raise (h : f.Sound) (ht : t ∈ f.pending) : (f.raise t).Sound := by
  unfold Forest.raise
  have hhandle := h.mem_handles (.inl ht)
  refine
    { known := ?known, told := h.told, child := h.child, root := h.root, called := h.called,
      begun := ?begun, reason := ?reason, flag := ?flag }
  case known => simpa only [Tokens.size_raise] using h.known
  case begun =>
    intro u hu
    refine h.begun u ?_
    rcases hu with hu | hu
    · exact .inl (List.mem_of_mem_erase hu)
    · rcases List.mem_cons.1 hu with rfl | hu
      · exact .inl ht
      · exact .inr hu
  case reason =>
    intro u hu
    by_cases htu : t = u
    · subst htu
      rw [Tokens.cell_raise_self (h.known t hhandle)]
      exact h.reason t hu
    · have hcell : t.cell ≠ u.cell := fun heq => htu (h.told t hhandle u hu heq)
      rw [Tokens.cell_raise_of_ne hcell]
      exact h.reason u hu
  case flag =>
    intro u hu
    by_cases htu : t = u
    · subst htu
      rw [Tokens.cell_raise_self (h.known t hhandle)]
      simp
    · have hcell : t.cell ≠ u.cell := fun heq => htu (h.told t hhandle u hu heq)
      rw [Tokens.cell_raise_of_ne hcell, h.flag u hu, List.mem_cons, or_iff_right (Ne.symm htu)]

/-- **Every step keeps the cells in line with what was done.** -/
theorem Sound.moves (h : f.Sound) (hmoves : f.Moves g) : g.Sound := by
  cases hmoves with
  | root =>
    refine h.push rfl (fun t p hmade => ?_) fun t ht habove => ?_
    · obtain ⟨ht, hp, hlink⟩ := h.child t p hmade
      exact ⟨List.mem_cons_of_mem _ ht, List.mem_cons_of_mem _ hp, hlink⟩
    · rcases List.mem_cons.1 ht with rfl | ht
      · exact absurd rfl habove
      · exact h.root t ht habove
  | @child parent hparent =>
    refine h.push rfl (fun t p hmade => ?_) fun t ht habove => ?_
    · rcases List.mem_cons.1 hmade with heq | hmade
      · cases heq
        exact ⟨List.mem_cons_self, List.mem_cons_of_mem _ hparent, rfl⟩
      · obtain ⟨ht, hp, hlink⟩ := h.child t p hmade
        exact ⟨List.mem_cons_of_mem _ ht, List.mem_cons_of_mem _ hp, hlink⟩
    · rcases List.mem_cons.1 ht with rfl | ht
      · exact ⟨parent, List.mem_cons_self⟩
      · obtain ⟨p, hp⟩ := h.root t ht habove
        exact ⟨p, List.mem_cons_of_mem _ hp⟩
  | @clone t ht =>
    have hmem (u : Token) (hu : u ∈ t :: f.handles) : u ∈ f.handles := by
      rcases List.mem_cons.1 hu with rfl | hu
      · exact ht
      · exact hu
    exact
      { known := fun u hu => h.known u (hmem u hu)
        told := fun u hu v hv => h.told u (hmem u hu) v (hmem v hv)
        child := fun u p hmade =>
          have hlink := h.child u p hmade
          ⟨List.mem_cons_of_mem t hlink.1, List.mem_cons_of_mem t hlink.2.1, hlink.2.2⟩
        root := fun u hu => h.root u (hmem u hu)
        called := fun call hcall => List.mem_cons_of_mem t (h.called call hcall)
        begun := h.begun
        reason := fun u hu => h.reason u (hmem u hu)
        flag := fun u hu => h.flag u (hmem u hu) }
  | record ht scope => exact h.record ht scope
  | raise ht => exact h.raise ht

/-- Whatever steps have led to it, a forest is sound. -/
theorem Grown.sound (h : f.Grown) : f.Sound := by
  induction h with
  | refl => exact sound_empty
  | tail _ hmoves ih => exact ih.moves hmoves

/-! ## What stays -/

/-- What no step takes back: handles, links, calls in their order, and flags. -/
structure Kept (f g : Forest) : Prop where
  handles : f.handles ⊆ g.handles
  made : f.made ⊆ g.made
  asked : f.asked <+: g.asked
  raised : f.raised ⊆ g.raised

theorem Kept.refl (f : Forest) : Kept f f :=
  ⟨List.Subset.refl _, List.Subset.refl _, List.prefix_rfl, List.Subset.refl _⟩

theorem Kept.trans {f' : Forest} (h : f.Kept f') (h' : f'.Kept g) : f.Kept g where
  handles := List.Subset.trans h.handles h'.handles
  made := List.Subset.trans h.made h'.made
  asked := h.asked.trans h'.asked
  raised := List.Subset.trans h.raised h'.raised

theorem Moves.kept (h : f.Moves g) : f.Kept g := by
  cases h with
  | root => exact { Kept.refl f with handles := List.subset_cons_self _ _ }
  | child ht =>
    exact { Kept.refl f with
      handles := List.subset_cons_self _ _
      made := List.subset_cons_self _ _ }
  | clone ht => exact { Kept.refl f with handles := List.subset_cons_self _ _ }
  | record ht scope => exact { Kept.refl f with asked := List.prefix_append _ _ }
  | raise ht => exact { Kept.refl f with raised := List.subset_cons_self _ _ }

theorem Leads.kept (h : f.Leads g) : f.Kept g := by
  induction h with
  | refl => exact .refl f
  | tail _ hmoves ih => exact ih.trans hmoves.kept

theorem Sound.leads (h : f.Sound) (hleads : f.Leads g) : g.Sound := by
  induction hleads with
  | refl => exact h
  | tail _ hmoves ih => exact ih.moves hmoves

theorem Kept.under (h : f.Kept g) (hunder : f.Under t a) : g.Under t a :=
  Relation.ReflTransGen.mono (fun _ _ hmade => h.made hmade) _ _ hunder

/-- The first call stays the first one. -/
theorem Kept.firstScope? (h : f.Kept g) (hfirst : f.firstScope? t = some s) :
    g.firstScope? t = some s := by
  obtain ⟨later, hlater⟩ := h.asked
  rw [Forest.firstScope?, ← hlater, List.find?_append, Option.map_or, ← Forest.firstScope?, hfirst,
    Option.some_or]

/-! ## Whole calls -/

theorem leads_cancel (ht : t ∈ f.handles) (scope : Scope) : f.Leads (f.cancel t scope) :=
  (Relation.ReflTransGen.single (.record ht scope)).tail (.raise List.mem_cons_self)

/-! ## The tokens above a token -/

theorem Sound.parent_unique (h : f.Sound) {q : Token} (hp : (t, p) ∈ f.made)
    (hq : (t, q) ∈ f.made) : p = q := by
  have hpath : p.path = q.path := (h.child t p hp).2.2.symm.trans (h.child t q hq).2.2
  rw [Token.path, Token.path, List.cons.injEq] at hpath
  exact h.told p (h.child t p hp).2.1 q (h.child t q hq).2.1 hpath.1

/-- What holds of the tokens that were made from none, and goes down from a token to its children,
holds of all tokens. -/
theorem Sound.induction {P : Token → Prop} (h : f.Sound)
    (hroot : ∀ t ∈ f.handles, t.above = [] → P t)
    (hchild : ∀ t p, (t, p) ∈ f.made → P p → P t) (ht : t ∈ f.handles) : P t := by
  -- a token has a longer path than the one it was made from
  induction hlength : t.above.length using Nat.strong_induction_on generalizing t with
  | _ n ih =>
    by_cases habove : t.above = []
    · exact hroot t ht habove
    · obtain ⟨p, hp⟩ := h.root t ht habove
      obtain ⟨-, hhandle, hlink⟩ := h.child t p hp
      have hshorter : p.above.length < n := by
        rw [← hlength, hlink, Token.path, List.length_cons]
        exact Nat.lt_succ_self _
      exact hchild t p hp (ih _ hshorter hhandle rfl)

theorem Sound.not_made_of_above_nil (h : f.Sound) (habove : t.above = []) (p : Token) :
    (t, p) ∉ f.made := fun hmade => by
  have hlink := (h.child t p hmade).2.2
  simp [habove, Token.path] at hlink

theorem Sound.under_of_above_nil (h : f.Sound) (habove : t.above = []) :
    f.Under t a ↔ t = a := by
  rw [Under, Relation.ReflTransGen.cases_head_iff]
  refine or_iff_left ?_
  rintro ⟨p, hp, -⟩
  exact h.not_made_of_above_nil habove p hp

theorem Sound.under_of_made (h : f.Sound) (hmade : (t, p) ∈ f.made) :
    f.Under t a ↔ t = a ∨ f.Under p a := by
  rw [Under, Relation.ReflTransGen.cases_head_iff]
  refine or_congr_right ⟨?_, fun hp => ⟨p, hmade, hp⟩⟩
  rintro ⟨q, hq, hunder⟩
  rwa [h.parent_unique hmade hq]

theorem Sound.mem_handles_of_under (h : f.Sound) (ht : t ∈ f.handles) (hunder : f.Under t a) :
    a ∈ f.handles := by
  induction hunder with
  | refl => exact ht
  | tail _ hmade _ => exact (h.child _ _ hmade).2.1

/-- A token looks at the cells of the tokens above it. -/
theorem Sound.mem_path_iff (h : f.Sound) (ht : t ∈ f.handles) {i : Nat} :
    i ∈ t.path ↔ ∃ a, f.Under t a ∧ a.cell = i := by
  refine h.induction (P := fun t => i ∈ t.path ↔ ∃ a, f.Under t a ∧ a.cell = i) ?_ ?_ ht
  · intro t _ habove
    simp [Token.path, habove, h.under_of_above_nil habove, eq_comm]
  · intro t p hmade ih
    rw [Token.path, List.mem_cons, (h.child t p hmade).2.2, ih]
    simp only [h.under_of_made hmade, or_and_right, exists_or, exists_eq_left', eq_comm]

theorem Sound.cell_mem_path_iff (h : f.Sound) (ht : t ∈ f.handles) (ha : a ∈ f.handles) :
    a.cell ∈ t.path ↔ f.Under t a := by
  rw [h.mem_path_iff ht]
  refine ⟨?_, fun hunder => ⟨a, hunder, rfl⟩⟩
  rintro ⟨b, hunder, hcell⟩
  rwa [← h.told b (h.mem_handles_of_under ht hunder) a ha hcell]

/-! ## What a token sees -/

/-- **A token is cancelled** if its flag, or that of a token above it, is raised. -/
theorem Sound.isCancelled_iff (h : f.Sound) (ht : t ∈ f.handles) :
    f.tokens.isCancelled t ↔ ∃ a, f.Under t a ∧ (f.tokens.cell a.cell).raised := by
  rw [Tokens.isCancelled, List.any_eq_true]
  constructor
  · rintro ⟨i, hi, hraised⟩
    obtain ⟨a, hunder, rfl⟩ := (h.mem_path_iff ht).1 hi
    exact ⟨a, hunder, hraised⟩
  · rintro ⟨a, hunder, hraised⟩
    exact ⟨a.cell, (h.mem_path_iff ht).2 ⟨a, hunder, rfl⟩, hraised⟩

/-- **The reason of a token** is the one nearest to it. -/
theorem Sound.reason?_iff (h : f.Sound) (ht : t ∈ f.handles) :
    f.tokens.reason? t = some s ↔ f.Nearest t s := by
  refine h.induction (P := fun t => f.tokens.reason? t = some s ↔ f.Nearest t s) ?_ ?_ ht
  · intro t _ habove
    rw [Tokens.reason?_of_above_nil habove]
    refine ⟨.own, fun hnearest => ?_⟩
    cases hnearest with
    | own hown => exact hown
    | above _ hmade _ => exact absurd hmade (h.not_made_of_above_nil habove _)
  · intro t p hmade ih
    rw [Tokens.reason?_of_above (h.child t p hmade).2.2]
    constructor
    · intro hreason
      cases hown : (f.tokens.cell t.cell).reason with
      | some own =>
        rw [hown, Option.some_or] at hreason
        exact .own (hown.trans hreason)
      | none =>
        rw [hown, Option.none_or] at hreason
        exact .above hown hmade (ih.1 hreason)
    · intro hnearest
      cases hnearest with
      | own hown => rw [hown, Option.some_or]
      | above hnone hmade' hnearest =>
        rw [hnone, Option.none_or]
        exact ih.2 (h.parent_unique hmade' hmade ▸ hnearest)

/-- A token whose flag is raised has a reason of its own: that was recorded before. -/
theorem Sound.isSome_reason_of_raised (h : f.Sound) (ha : a ∈ f.handles)
    (hraised : (f.tokens.cell a.cell).raised) : (f.tokens.cell a.cell).reason.isSome := by
  obtain ⟨scope, hscope⟩ := h.begun a (.inr ((h.flag a ha).1 hraised))
  rw [h.reason a ha]
  exact isSome_firstScope? hscope

theorem Sound.isSome_reason? (h : f.Sound) (ht : t ∈ f.handles)
    (hcancelled : f.tokens.isCancelled t) : (f.tokens.reason? t).isSome := by
  obtain ⟨a, hunder, hraised⟩ := (h.isCancelled_iff ht).1 hcancelled
  rw [Tokens.reason?, List.findSome?_isSome_iff]
  exact ⟨a.cell, (h.mem_path_iff ht).2 ⟨a, hunder, rfl⟩,
    h.isSome_reason_of_raised (h.mem_handles_of_under ht hunder) hraised⟩

/-- A raised flag stays raised. -/
theorem Sound.raised_leads (h : f.Sound) (hleads : f.Leads g) (ht : t ∈ f.handles)
    (hraised : (f.tokens.cell t.cell).raised) : (g.tokens.cell t.cell).raised :=
  ((h.leads hleads).flag t (hleads.kept.handles ht)).2
    (hleads.kept.raised ((h.flag t ht).1 hraised))

/-- A cancelled token stays cancelled. -/
theorem Sound.isCancelled_leads (h : f.Sound) (hleads : f.Leads g) (ht : t ∈ f.handles)
    (hcancelled : f.tokens.isCancelled t) : g.tokens.isCancelled t := by
  obtain ⟨a, hunder, hraised⟩ := (h.isCancelled_iff ht).1 hcancelled
  exact ((h.leads hleads).isCancelled_iff (hleads.kept.handles ht)).2
    ⟨a, hleads.kept.under hunder,
      h.raised_leads hleads (h.mem_handles_of_under ht hunder) hraised⟩

/-- The reason recorded on a token stays. -/
theorem Sound.reason_leads (h : f.Sound) (hleads : f.Leads g) (ht : t ∈ f.handles)
    (hown : (f.tokens.cell t.cell).reason = some s) : (g.tokens.cell t.cell).reason = some s := by
  rw [h.reason t ht] at hown
  rw [(h.leads hleads).reason t (hleads.kept.handles ht)]
  exact hleads.kept.firstScope? hown

end Forest

end Gauge
