import Gauge.Named
import Mathlib

/-!
# What a table says of each name

A table is determined by the value it gives to each name, and each operation is described by what
it does to that view.

## Main statements

* `ext_find?` — two tables that give every name the same value are equal.
* `find?_insert`, `find?_erase`, `find?_map`, `find?_filterMap`, `find?_ofNames` — the operations
  seen through `find?`.
* `ofList_entries` — a table is the table of its entries.
* `find?_extend_entries` — a table over another one hides what it names.
-/

namespace Gauge.Named

variable {α β : Type}

/-! ## Lists of pairs -/

theorem lookup_eq_none {name : String} {l : List (String × α)} (h : ∀ e ∈ l, e.1 ≠ name) :
    lookup name l = none := by
  induction l with
  | nil => rfl
  | cons e l ih =>
    rw [lookup, if_neg (h e List.mem_cons_self)]
    exact ih fun e he => h e (List.mem_cons_of_mem _ he)

theorem isSome_lookup_iff {name : String} {l : List (String × α)} :
    (lookup name l).isSome ↔ name ∈ l.map (·.1) := by
  induction l with
  | nil => simp [lookup]
  | cons e l ih =>
    by_cases h : e.1 = name
    · simp [lookup, h]
    · simp [lookup, h, Ne.symm h, ih]

theorem lookup_insertEntry (name other : String) (value : α) (l : List (String × α)) :
    lookup other (insertEntry name value l) =
      if other = name then some value else lookup other l := by
  induction l with
  | nil => simp [insertEntry, lookup, eq_comm]
  | cons e l ih =>
    simp only [insertEntry]
    by_cases hlt : name < e.1
    · simp [hlt, lookup, eq_comm]
    · rw [if_neg hlt]
      by_cases heq : name = e.1
      · subst heq
        by_cases hother : other = e.1
        · simp [lookup, hother]
        · simp [lookup, hother, Ne.symm hother]
      · rw [if_neg heq, lookup, lookup, ih]
        by_cases hother : other = name
        · subst hother
          simp [Ne.symm heq]
        · simp [hother]

/-- A name below the first one of an ordered list has no value in it. -/
theorem not_lt_of_lookup_eq {a b : String × α} {l m : List (String × α)}
    (hm : ∀ e ∈ m, b.1 < e.1) (h : lookup a.1 (a :: l) = lookup a.1 (b :: m)) : ¬ a.1 < b.1 := by
  intro hlt
  have hnone : lookup a.1 (b :: m) = none := by
    refine lookup_eq_none ?_
    intro e he
    rcases List.mem_cons.1 he with rfl | he
    · exact ne_of_gt hlt
    · exact ne_of_gt (lt_trans hlt (hm e he))
  rw [hnone] at h
  simp [lookup] at h

/-- Ordered lists that give every name the same value are equal. -/
theorem ext_lookup {l m : List (String × α)} (hl : l.Pairwise fun a b => a.1 < b.1)
    (hm : m.Pairwise fun a b => a.1 < b.1) (h : ∀ name, lookup name l = lookup name m) :
    l = m := by
  induction l generalizing m with
  | nil =>
    cases m with
    | nil => rfl
    | cons b m => simpa [lookup] using h b.1
  | cons a l ih =>
    cases m with
    | nil => simpa [lookup] using h a.1
    | cons b m =>
      obtain ⟨ha, hl⟩ := List.pairwise_cons.1 hl
      obtain ⟨hb, hm⟩ := List.pairwise_cons.1 hm
      have hname : a.1 = b.1 :=
        le_antisymm (not_lt.1 (not_lt_of_lookup_eq ha (h b.1).symm))
          (not_lt.1 (not_lt_of_lookup_eq hb (h a.1)))
      have hvalue : a.2 = b.2 := by simpa [lookup, hname] using h a.1
      have htail : l = m := by
        refine ih hl hm ?_
        intro name
        by_cases hn : a.1 = name
        · have hleft : lookup name l = none :=
            lookup_eq_none fun e he => hn ▸ ne_of_gt (ha e he)
          have hright : lookup name m = none :=
            lookup_eq_none fun e he => hn ▸ hname ▸ ne_of_gt (hb e he)
          rw [hleft, hright]
        · simpa [lookup, hn, ← hname] using h name
      rw [htail, Prod.ext hname hvalue]

theorem insertEntry_of_lt {name : String} {value : α} {l : List (String × α)}
    (h : ∀ e ∈ l, e.1 < name) : insertEntry name value l = l ++ [(name, value)] := by
  induction l with
  | nil => rfl
  | cons e l ih =>
    have he := h e List.mem_cons_self
    rw [insertEntry, if_neg (not_lt_of_gt he), if_neg (ne_of_gt he),
      ih fun e he => h e (List.mem_cons_of_mem _ he), List.cons_append]

theorem lookup_filter_ne (name other : String) (l : List (String × α)) :
    lookup other (l.filter fun e => e.1 ≠ name) =
      if other = name then none else lookup other l := by
  induction l with
  | nil => simp [lookup]
  | cons e l ih =>
    by_cases he : e.1 = name
    · rw [List.filter_cons_of_neg (by simpa using he), ih, lookup]
      by_cases hother : other = name
      · simp [hother]
      · simp [hother, he, Ne.symm hother]
    · rw [List.filter_cons_of_pos (by simpa using he), lookup, lookup, ih]
      by_cases hother : other = name
      · subst hother
        simp [he]
      · simp [hother]

/-! ## Tables -/

/-- Two tables that give every name the same value are equal. -/
theorem ext_find? {s t : Named α} (h : ∀ name, s.find? name = t.find? name) : s = t :=
  ext (ext_lookup s.sorted t.sorted h)

@[simp] theorem find?_empty (name : String) : (empty : Named α).find? name = none := rfl

@[simp] theorem find?_insert (t : Named α) (name other : String) (value : α) :
    (t.insert name value).find? other = if other = name then some value else t.find? other :=
  lookup_insertEntry name other value t.entries

@[simp] theorem find?_erase (t : Named α) (name other : String) :
    (t.erase name).find? other = if other = name then none else t.find? other :=
  lookup_filter_ne name other t.entries

@[simp] theorem find?_alter (t : Named α) (name other : String) (f : Option α → α) :
    (t.alter name f).find? other =
      if other = name then some (f (t.find? name)) else t.find? other :=
  find?_insert t name other _

@[simp] theorem find?_map (f : α → β) (t : Named α) (name : String) :
    (t.map f).find? name = (t.find? name).map f := by
  obtain ⟨entries, sorted⟩ := t
  simp only [map, find?]
  clear sorted
  induction entries with
  | nil => rfl
  | cons e entries ih =>
    by_cases h : e.1 = name
    · simp [lookup, h]
    · simp [lookup, h, ih]

theorem mem_names_iff {t : Named α} {name : String} : name ∈ t.names ↔ t.contains name :=
  isSome_lookup_iff.symm

theorem contains_eq_false_iff {t : Named α} {name : String} :
    t.contains name = false ↔ t.find? name = none := by
  simp [contains]

theorem contains_insert {t : Named α} {name other : String} {value : α} :
    (t.insert name value).contains other ↔ t.contains other ∨ other = name := by
  rw [contains, contains, find?_insert]
  by_cases hother : other = name
  · simp [hother]
  · simp [hother]

/-- A table that is extended has its old names and those of the pairs. -/
theorem contains_extend {t : Named α} {pairs : List (String × α)} {name : String} :
    (t.extend pairs).contains name ↔ t.contains name ∨ name ∈ pairs.map (·.1) := by
  induction pairs generalizing t with
  | nil => simp [extend]
  | cons e pairs ih =>
    have hstep : t.extend (e :: pairs) = (t.insert e.1 e.2).extend pairs := rfl
    rw [hstep, ih, contains_insert, List.map_cons, List.mem_cons, or_assoc]

theorem contains_ofList {pairs : List (String × α)} {name : String} :
    (ofList pairs).contains name ↔ name ∈ pairs.map (·.1) := by
  rw [ofList, contains_extend]
  exact or_iff_right Bool.false_ne_true

/-- Pairs in ascending order behind all entries are appended. -/
theorem entries_extend {pairs : List (String × α)} {t : Named α}
    (h : (t.entries ++ pairs).Pairwise fun a b => a.1 < b.1) :
    (t.extend pairs).entries = t.entries ++ pairs := by
  induction pairs generalizing t with
  | nil => simp [extend]
  | cons e pairs ih =>
    have hlast : ∀ a ∈ t.entries, a.1 < e.1 := fun a ha =>
      (List.pairwise_append.1 h).2.2 a ha e List.mem_cons_self
    have hinsert : (t.insert e.1 e.2).entries = t.entries ++ [e] := insertEntry_of_lt hlast
    have hrest : ((t.insert e.1 e.2).entries ++ pairs).Pairwise fun a b => a.1 < b.1 := by
      rw [hinsert, List.append_assoc]
      exact h
    have hstep : t.extend (e :: pairs) = (t.insert e.1 e.2).extend pairs := rfl
    rw [hstep, ih hrest, hinsert, List.append_assoc, List.singleton_append]

/-- A table is the table of its entries. -/
@[simp] theorem ofList_entries (t : Named α) : ofList t.entries = t := by
  apply ext
  have hnil : (empty : Named α).entries = [] := rfl
  rw [ofList, entries_extend (by rw [hnil, List.nil_append]; exact t.sorted), hnil,
    List.nil_append]

/-- A part of a list without repeated names gives a name what it makes of the value of that name. -/
theorem lookup_filterMap (f : String → α → Option β) {l : List (String × α)}
    (h : l.Pairwise fun a b => a.1 < b.1) (name : String) :
    lookup name (l.filterMap fun e => (f e.1 e.2).map (e.1, ·)) =
      (lookup name l).bind (f name) := by
  induction l with
  | nil => rfl
  | cons e l ih =>
    obtain ⟨he, hl⟩ := List.pairwise_cons.1 h
    by_cases hname : e.1 = name
    · subst hname
      have hrest := ih hl
      rw [lookup_eq_none fun x hx => ne_of_gt (he x hx)] at hrest
      cases hf : f e.1 e.2 with
      | none => simpa [lookup, hf] using hrest
      | some b => simp [lookup, hf]
    · cases hf : f e.1 e.2 with
      | none => simp [lookup, hname, hf, ih hl]
      | some b => simp [lookup, hname, hf, ih hl]

theorem entries_filterMap (f : String → α → Option β) (t : Named α) :
    (t.filterMap f).entries = t.entries.filterMap fun e => (f e.1 e.2).map (e.1, ·) := by
  have hsorted : (t.entries.filterMap fun e => (f e.1 e.2).map (e.1, ·)).Pairwise
      fun a b => a.1 < b.1 := by
    refine List.Pairwise.filterMap _ ?_ t.sorted
    intro a b hab a' ha b' hb
    obtain ⟨x, -, rfl⟩ := Option.map_eq_some_iff.1 ha
    obtain ⟨y, -, rfl⟩ := Option.map_eq_some_iff.1 hb
    exact hab
  exact entries_extend (t := empty) hsorted

@[simp] theorem find?_filterMap (f : String → α → Option β) (t : Named α) (name : String) :
    (t.filterMap f).find? name = (t.find? name).bind (f name) := by
  rw [find?, entries_filterMap, lookup_filterMap f t.sorted, find?]

theorem find?_extend_unit (names : List String) (t : NameSet) (name : String) :
    (t.extend (names.map (·, ()))).find? name =
      if name ∈ names then some () else t.find? name := by
  induction names generalizing t with
  | nil => simp [extend]
  | cons n names ih =>
    have hstep : t.extend ((n :: names).map (·, ())) =
        (t.insert n ()).extend (names.map (·, ())) := rfl
    rw [hstep, ih, find?_insert]
    by_cases hmem : name ∈ names
    · simp [hmem]
    · by_cases heq : name = n
      · simp [heq]
      · simp [hmem, heq]

/-- The set of the names of a list has exactly these. -/
theorem find?_ofNames (names : List String) (name : String) :
    (NameSet.ofNames names).find? name = if name ∈ names then some () else none :=
  find?_extend_unit names empty name

/-! ## Tables over tables -/

/-- A table that is extended by another one has the values of that one, and otherwise its own. -/
theorem find?_extend_entries (t u : Named α) (name : String) :
    (t.extend u.entries).find? name = (u.find? name).or (t.find? name) := by
  obtain ⟨pairs, hsorted⟩ := u
  show (t.extend pairs).find? name = (lookup name pairs).or (t.find? name)
  induction pairs generalizing t with
  | nil => rfl
  | cons e pairs ih =>
    obtain ⟨he, hpairs⟩ := List.pairwise_cons.1 hsorted
    have hstep : t.extend (e :: pairs) = (t.insert e.1 e.2).extend pairs := rfl
    rw [hstep, ih _ hpairs, find?_insert, lookup]
    by_cases hname : e.1 = name
    · have hnone : lookup name pairs = none :=
        lookup_eq_none fun x hx => hname ▸ ne_of_gt (he x hx)
      simp [hname, hnone]
    · simp [hname, Ne.symm hname]

theorem extend_extend_self (t u : Named α) :
    (t.extend u.entries).extend u.entries = t.extend u.entries := by
  apply ext_find?
  intro name
  simp only [find?_extend_entries]
  cases u.find? name <;> rfl

/-! ## Names of whole tables -/

theorem map_insert (f : α → β) (t : Named α) (name : String) (value : α) :
    (t.insert name value).map f = (t.map f).insert name (f value) := by
  apply ext_find?
  intro other
  rw [find?_map, find?_insert, find?_insert, find?_map]
  by_cases hother : other = name
  · rw [if_pos hother, if_pos hother, Option.map_some]
  · rw [if_neg hother, if_neg hother]

theorem map_extend (f : α → β) (t : Named α) (pairs : List (String × α)) :
    (t.extend pairs).map f = (t.map f).extend (pairs.map fun e => (e.1, f e.2)) := by
  induction pairs generalizing t with
  | nil => rfl
  | cons e pairs ih =>
    have hstep : t.extend (e :: pairs) = (t.insert e.1 e.2).extend pairs := rfl
    rw [hstep, ih, map_insert]
    rfl

/-- The names of the table of a list are those of the list. -/
theorem names_ofList (pairs : List (String × α)) :
    (ofList pairs).names = (NameSet.ofNames (pairs.map (·.1))).names := by
  have hmap : (ofList pairs).map (fun _ => ()) = NameSet.ofNames (pairs.map (·.1)) := by
    rw [ofList, map_extend, NameSet.ofNames, List.map_map]
    rfl
  rw [← hmap, names, names, map, List.map_map]
  rfl

/-- The names after an insertion depend on those before it only. -/
theorem names_insert_congr {s : Named α} {t : Named β} (h : s.names = t.names) (name : String)
    (a : α) (b : β) : (s.insert name a).names = (t.insert name b).names := by
  have hnames {γ : Type} (u : Named γ) : (u.map fun _ => ()).names = u.names := by
    rw [names, names, map, List.map_map]
    rfl
  have hmap : s.map (fun _ => ()) = t.map fun _ => () := by
    apply ext
    have hentries {γ : Type} (u : Named γ) :
        (u.map fun _ => ()).entries = u.names.map fun n => (n, ()) := by
      rw [names, map, List.map_map]
      rfl
    rw [hentries, hentries, h]
  rw [← hnames, ← hnames (t.insert name b), map_insert, map_insert, hmap]

end Gauge.Named
