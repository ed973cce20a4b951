/-!
# Tables keyed by metric names

A `Named α` holds at most one value per name and lists its entries in name order, the order in
which every report, error search and serialized form walks them.  The order is part of the type, so
two tables with the same content are equal.

## Main definitions

* `Named α` — the table; `Named.entries` is its view as a list of pairs.
* `Named.find?`, `Named.insert`, `Named.erase`, `Named.alter` — access to one name.
* `Named.ofList`, `Named.extend` — many entries at once, the last one of a name winning.
* `NameSet` — a set of names.
-/

namespace Gauge

/-- A table from names to values, listed in name order. -/
structure Named (α : Type) where
  entries : List (String × α)
  sorted : entries.Pairwise fun a b => a.1 < b.1

namespace Named

variable {α β : Type}

@[ext] theorem ext {s t : Named α} (h : s.entries = t.entries) : s = t := by
  cases s; cases t; cases h; rfl

instance [DecidableEq α] : DecidableEq (Named α) := fun s t =>
  if h : s.entries = t.entries then isTrue (ext h) else isFalse fun e => h (e ▸ rfl)

def empty : Named α := ⟨[], .nil⟩

instance : EmptyCollection (Named α) := ⟨empty⟩

instance : Inhabited (Named α) := ⟨empty⟩

def isEmpty (t : Named α) : Bool := t.entries.isEmpty

/-- The names that have a value, in order. -/
def names (t : Named α) : List String := t.entries.map (·.1)

/-- The first value that a list of pairs gives to a name. -/
def lookup (name : String) : List (String × α) → Option α
  | [] => none
  | e :: es => if e.1 = name then some e.2 else lookup name es

/-- The value of one name, if it has one. -/
def find? (t : Named α) (name : String) : Option α := lookup name t.entries

def contains (t : Named α) (name : String) : Bool := (t.find? name).isSome

/-! ## Changing one name -/

/-- Puts a pair at its place in an ordered list, over an older pair of the same name. -/
def insertEntry (name : String) (value : α) : List (String × α) → List (String × α)
  | [] => [(name, value)]
  | e :: es =>
    if name < e.1 then (name, value) :: e :: es
    else if name = e.1 then (name, value) :: es
    else e :: insertEntry name value es

theorem mem_insertEntry {name : String} {value : α} {e : String × α} {l : List (String × α)}
    (h : e ∈ insertEntry name value l) : e = (name, value) ∨ e ∈ l := by
  induction l with
  | nil => simpa [insertEntry] using h
  | cons a l ih =>
    unfold insertEntry at h
    split at h
    · simpa using h
    · split at h
      · rcases List.mem_cons.1 h with h | h
        · exact .inl h
        · exact .inr (List.mem_cons_of_mem _ h)
      · rcases List.mem_cons.1 h with h | h
        · exact .inr (h ▸ List.mem_cons_self)
        · exact (ih h).imp id (List.mem_cons_of_mem _)

theorem sorted_insertEntry (name : String) (value : α) {l : List (String × α)}
    (h : l.Pairwise fun a b => a.1 < b.1) :
    (insertEntry name value l).Pairwise fun a b => a.1 < b.1 := by
  induction l with
  | nil => simp [insertEntry]
  | cons a l ih =>
    have ha := List.pairwise_cons.1 h
    unfold insertEntry
    split
    · next hlt =>
      refine List.pairwise_cons.2 ⟨fun b hb => ?_, h⟩
      rcases List.mem_cons.1 hb with rfl | hb
      · exact hlt
      · exact String.lt_trans hlt (ha.1 b hb)
    · next hlt =>
      split
      · next heq =>
        exact List.pairwise_cons.2 ⟨fun b hb => by simpa [heq] using ha.1 b hb, ha.2⟩
      · next hne =>
        refine List.pairwise_cons.2 ⟨fun b hb => ?_, ih ha.2⟩
        rcases mem_insertEntry hb with rfl | hb
        · rcases Std.lt_trichotomy name a.1 with h | h | h
          · exact absurd h hlt
          · exact absurd h hne
          · exact h
        · exact ha.1 b hb

/-- Gives a name its value, replacing an older one. -/
def insert (t : Named α) (name : String) (value : α) : Named α :=
  ⟨insertEntry name value t.entries, sorted_insertEntry name value t.sorted⟩

def erase (t : Named α) (name : String) : Named α :=
  ⟨t.entries.filter fun e => e.1 ≠ name, t.sorted.filter _⟩

/-- Replaces the value of a name by what `f` makes of it. -/
def alter (t : Named α) (name : String) (f : Option α → α) : Named α :=
  t.insert name (f (t.find? name))

/-! ## Whole tables -/

/-- Enters pairs one after another, so that the last pair of a name wins. -/
def extend (t : Named α) (pairs : List (String × α)) : Named α :=
  pairs.foldl (fun t e => t.insert e.1 e.2) t

/-- The table of a list of pairs, the last pair of a name winning. -/
def ofList (pairs : List (String × α)) : Named α := empty.extend pairs

/-- Keeps the names and maps the values. -/
def map (f : α → β) (t : Named α) : Named β :=
  ⟨t.entries.map fun e => (e.1, f e.2), by
    simpa [List.pairwise_map] using t.sorted⟩

/-- The entries for which `f` has a value. -/
def filterMap (f : String → α → Option β) (t : Named α) : Named β :=
  ofList (t.entries.filterMap fun e => (f e.1 e.2).map (e.1, ·))

end Named

/-- A set of names. -/
abbrev NameSet := Named Unit

def NameSet.ofNames (names : List String) : NameSet := Named.ofList (names.map (·, ()))

end Gauge
