import Gauge.Store.Archive
import Mathlib

/-!
# Archives read back

Reading an archive gives the record it was made from.  The proof follows the layout: `Lies` says
that bytes lie at a place of a payload, an archive lies at the start of itself, and so every name,
entry and root word lies where the reader looks for it.

## Main statements

* `length_encode` — an archive is as long as `size` says.
* `decode?_encode` — an archive of at most 2 GiB is read back to its record.
-/

namespace Gauge.Archive

open LittleEndian

/-! ## Words -/

/-- Reading the low bytes of a word gives the word cut to that width. -/
theorem ofBytes_bytesOf (width n : Nat) : ofBytes (bytesOf width n) = n % 256 ^ width := by
  induction width generalizing n with
  | zero => simp [bytesOf, ofBytes, Nat.mod_one]
  | succ width ih =>
    have h : 256 ^ (width + 1) = 256 * 256 ^ width := Nat.pow_succ'
    simp only [bytesOf, ofBytes, ih, h, Nat.mod_mul, UInt8.toNat_ofNat']

/-- The bytes of a word are its low bytes followed by those of its high part. -/
theorem bytesOf_add (m n word : Nat) :
    bytesOf (m + n) word = bytesOf m word ++ bytesOf n (word / 256 ^ m) := by
  induction m generalizing word with
  | zero => simp [bytesOf]
  | succ m ih =>
    have hdiv : word / 256 ^ (m + 1) = word / 256 / 256 ^ m := by
      rw [Nat.pow_succ', Nat.div_div_eq_div_mul]
    rw [Nat.succ_add, bytesOf, ih, bytesOf, hdiv, List.cons_append]

theorem offsetOf_ofOffset {distance : Int} (hlo : -2 ^ 31 ≤ distance) (hhi : distance < 2 ^ 31) :
    offsetOf (ofOffset distance) = distance := by
  rw [offsetOf, ofOffset, UInt32.size]
  split <;> omega

/-- A distance back has its sign bit set. -/
theorem sign_ofOffset {distance : Int} (hlo : -2 ^ 31 ≤ distance) (hneg : distance < 0) :
    128 ≤ ofOffset distance / 256 ^ 3 % 256 := by
  simp only [ofOffset, UInt32.size]
  omega

theorem ofOffset_lt (distance : Int) : ofOffset distance < 256 ^ 4 := by
  simp only [ofOffset, UInt32.size]
  omega

theorem ofValue_lt (v : Int64) : ofValue v < 256 ^ 8 := v.toUInt64.toNat_lt

/-! ## Bytes at a place -/

/-- Bytes lie at a place of a payload. -/
def Lies (payload : List UInt8) (place : Nat) (bytes : List UInt8) : Prop :=
  slice payload place bytes.length = bytes

theorem lies_append {payload : List UInt8} {place : Nat} {a b : List UInt8} :
    Lies payload place (a ++ b) ↔ Lies payload place a ∧ Lies payload (place + a.length) b := by
  simp only [Lies, slice]
  rw [List.length_append, List.take_add, List.drop_drop]
  constructor
  · intro h
    have hlen := congrArg List.length h
    simp only [List.length_append, List.length_take, List.length_drop] at hlen
    exact List.append_inj h (by simp only [List.length_take, List.length_drop]; omega)
  · rintro ⟨ha, hb⟩
    rw [ha, hb]

theorem lies_zero (payload : List UInt8) : Lies payload 0 payload := by
  simp [Lies, slice]

/-- The word at the place of its bytes. -/
theorem word_of_lies {payload : List UInt8} {place width n : Nat}
    (h : Lies payload place (bytesOf width n)) : word payload place width = n % 256 ^ width := by
  simp only [Lies] at h
  rw [length_bytesOf] at h
  rw [word, h, ofBytes_bytesOf]

/-! ## Sizes -/

@[simp] theorem length_utf8 (text : String) : (utf8 text).length = text.utf8ByteSize := rfl

@[simp] theorem length_outside (name : String) : (outside name).length = outsideSize name := by
  simp only [outside, outsideSize]
  split <;> simp

@[simp] theorem length_nameCell (place nameAt : Nat) (name : String) :
    (nameCell place nameAt name).length = 8 := by
  simp only [nameCell]
  split
  · next h =>
    simp only [inlineCapacity] at h ⊢
    simp only [List.length_append, length_utf8, List.length_replicate, length_bytesOf]
    omega
  · simp

@[simp] theorem length_entryBytes (place nameAt : Nat) (values : List (String × Int64)) :
    (entryBytes place nameAt values).length = cell * values.length := by
  induction values generalizing place nameAt with
  | nil => rfl
  | cons e values ih =>
    simp only [entryBytes, List.length_append, length_nameCell, length_bytesOf, ih,
      List.length_cons, cell]
    omega

theorem namesSize_cons (e : String × Int64) (values : List (String × Int64)) :
    namesSize (e :: values) = outsideSize e.1 + namesSize values := rfl

theorem namesSize_eq_sum (values : List (String × Int64)) :
    namesSize values = (values.map fun e => outsideSize e.1).sum := by
  induction values with
  | nil => rfl
  | cons e values ih => rw [namesSize_cons, ih, List.map_cons, List.sum_cons]

@[simp] theorem length_names (values : List (String × Int64)) :
    (values.flatMap fun e => outside e.1).length = namesSize values := by
  simp [namesSize_eq_sum, List.length_flatMap]

theorem le_aligned (n : Nat) : n ≤ aligned n := by
  simp only [aligned]
  omega

theorem aligned_mod (n : Nat) : aligned n % 8 = 0 := by
  simp only [aligned]
  omega

/-- An archive is as long as its size says. -/
@[simp] theorem length_encode (r : Record) : (encode r).length = size r := by
  have h := le_aligned (namesSize r.values)
  simp only [encode, List.length_append, length_names, List.length_replicate, length_entryBytes,
    length_bytesOf, size, rootAt, entriesAt, cell]
  omega

/-! ## Names and entries -/

theorem text?_utf8 (text : String) : text? (utf8 text) = some text := by
  have hbytes : (⟨(utf8 text).toArray⟩ : ByteArray) = text.toByteArray := by
    simp [utf8]
  rw [text?, hbytes, String.fromUTF8?, dif_pos text.isValidUTF8]
  rfl

/-- A name that stands in its entry is read back from there. -/
theorem readName?_of_short {payload : List UInt8} {first nameAt place : Nat} {name : String}
    (hshort : name.utf8ByteSize ≤ inlineCapacity)
    (hcell : Lies payload place (nameCell place nameAt name))
    (hroom : place + cell ≤ payload.length) :
    readName? payload first nameAt place = some (name, nameAt) := by
  simp only [nameCell] at hcell
  simp only [cell] at hroom
  rw [if_pos hshort] at hcell
  simp only [inlineCapacity] at hshort hcell
  rw [List.append_assoc, lies_append, lies_append] at hcell
  obtain ⟨htext, -, htag⟩ := hcell
  have hcount : name.utf8ByteSize + (7 - name.utf8ByteSize) = 7 := by omega
  rw [length_utf8, List.length_replicate, Nat.add_assoc, hcount] at htag
  have hword : word payload (place + 7) 1 = name.utf8ByteSize := by
    rw [word_of_lies htag]
    omega
  have hslice : slice payload place name.utf8ByteSize = utf8 name := htext
  simp only [readName?, inlineCapacity]
  simp only [hword]
  rw [if_pos (by omega), if_pos (by omega), hslice, text?_utf8]
  rfl

/-- A longer name is read back from where the distance in its entry leads. -/
theorem readName?_of_long {payload : List UInt8} {first nameAt place : Nat} {name : String}
    (hlong : ¬ name.utf8ByteSize ≤ inlineCapacity)
    (hcell : Lies payload place (nameCell place nameAt name))
    (hname : Lies payload nameAt (utf8 name)) (hfirst : nameAt + name.utf8ByteSize ≤ first)
    (hplace : first ≤ place) (hroom : place + cell ≤ payload.length)
    (hsmall : payload.length ≤ 2 ^ 31) :
    readName? payload first nameAt place = some (name, nameAt + name.utf8ByteSize) := by
  simp only [nameCell] at hcell
  simp only [cell] at hroom
  rw [if_neg hlong] at hcell
  simp only [inlineCapacity] at hlong
  set distance : Int := (nameAt : Int) - place with hdistance
  rw [lies_append, length_bytesOf] at hcell
  obtain ⟨hlength, hoffset⟩ := hcell
  have hsize : word payload place 4 = name.utf8ByteSize := by
    rw [word_of_lies hlength]
    omega
  have hback : word payload (place + 4) 4 = ofOffset distance := by
    rw [word_of_lies hoffset, Nat.mod_eq_of_lt (ofOffset_lt distance)]
  -- the tag is the highest byte of the distance, which is negative
  have htag : ¬ word payload (place + 7) 1 < 128 := by
    rw [show (4 : Nat) = 3 + 1 from rfl, bytesOf_add, lies_append, length_bytesOf] at hoffset
    rw [word_of_lies hoffset.2]
    have hsign : 128 ≤ ofOffset distance / 256 ^ 3 % 256 :=
      sign_ofOffset (by omega) (by omega)
    omega
  have hat : (place : Int) + offsetOf (word payload (place + 4) 4) = nameAt := by
    rw [hback, offsetOf_ofOffset (by omega) (by omega)]
    omega
  have hslice : slice payload nameAt name.utf8ByteSize = utf8 name := hname
  simp only [readName?, inlineCapacity]
  simp only [hsize, hat]
  rw [if_neg htag, if_pos (by omega), Int.toNat_natCast, hslice, text?_utf8]
  rfl

/-- A name is read back from its cell; the next long name then starts behind it. -/
theorem readName?_of_lies {payload : List UInt8} {first nameAt place : Nat} {name : String}
    (hcell : Lies payload place (nameCell place nameAt name))
    (hname : Lies payload nameAt (outside name))
    (hfirst : nameAt + outsideSize name ≤ first) (hplace : first ≤ place)
    (hroom : place + cell ≤ payload.length) (hsmall : payload.length ≤ 2 ^ 31) :
    readName? payload first nameAt place = some (name, nameAt + outsideSize name) := by
  simp only [outside] at hname
  simp only [outsideSize] at hfirst ⊢
  by_cases hshort : name.utf8ByteSize ≤ inlineCapacity
  · rw [if_pos hshort]
    exact readName?_of_short hshort hcell hroom
  · rw [if_neg hshort] at hname hfirst ⊢
    exact readName?_of_long hshort hcell hname hfirst hplace hroom hsmall

/-- Entries are read back in order, the names of the long ones lying in order before them. -/
theorem readEntries?_of_lies {payload : List UInt8} {first : Nat} (values : List (String × Int64))
    {nameAt place : Nat} (hentries : Lies payload place (entryBytes place nameAt values))
    (hnames : Lies payload nameAt (values.flatMap fun e => outside e.1))
    (hfirst : nameAt + namesSize values ≤ first) (hplace : first ≤ place)
    (hroom : place + cell * values.length ≤ payload.length) (hsmall : payload.length ≤ 2 ^ 31) :
    readEntries? payload first values.length nameAt place = some values := by
  induction values generalizing nameAt place with
  | nil => rfl
  | cons e values ih =>
    obtain ⟨name, value⟩ := e
    rw [entryBytes, List.append_assoc, lies_append, lies_append, length_nameCell,
      length_bytesOf] at hentries
    obtain ⟨hcell, hvalue, hrest⟩ := hentries
    rw [List.flatMap_cons, lies_append, length_outside] at hnames
    rw [namesSize_cons] at hfirst
    rw [List.length_cons] at hroom
    simp only [cell] at hroom
    have hread : readName? payload first nameAt place = some (name, nameAt + outsideSize name) :=
      readName?_of_lies hcell hnames.1 (by simp only at hfirst; omega) hplace
        (by simp only [cell]; omega) hsmall
    have hword : word payload (place + 8) 8 = ofValue value := by
      rw [word_of_lies hvalue, Nat.mod_eq_of_lt (ofValue_lt value)]
    have htail : readEntries? payload first values.length (nameAt + outsideSize name)
        (place + cell) = some values := by
      refine ih hrest hnames.2 ?_ ?_ ?_
      · simp only at hfirst
        omega
      · omega
      · simp only [cell]
        omega
    rw [List.length_cons, readEntries?, hread]
    simp only [htail, hword, valueOf_ofValue, Option.map_some]

/-! ## Archives -/

/-- Where the parts of an archive lie in a payload that starts with it. -/
theorem lies_parts {payload : List UInt8} {r : Record} (h : Lies payload 0 (encode r)) :
    Lies payload 0 (r.values.flatMap fun e => outside e.1) ∧
      Lies payload (entriesAt r.values) (entryBytes (entriesAt r.values) 0 r.values) ∧
      Lies payload (rootAt r.values) (bytesOf 8 (ofValue r.start)) ∧
      Lies payload (rootAt r.values + 8)
        (bytesOf 4 (ofOffset ((entriesAt r.values : Int) - (rootAt r.values + 8)))) ∧
      Lies payload (rootAt r.values + 12) (bytesOf 4 r.values.length) := by
  have hle : namesSize r.values ≤ entriesAt r.values := le_aligned _
  have hpad : namesSize r.values + (entriesAt r.values - namesSize r.values)
      = entriesAt r.values := by omega
  simp only [encode, lies_append, List.length_append, length_names, List.length_replicate,
    length_entryBytes, length_bytesOf, Nat.zero_add, hpad] at h
  obtain ⟨⟨⟨⟨⟨hnames, -⟩, hentries⟩, hstart⟩, hoffset⟩, hcount⟩ := h
  exact ⟨hnames, hentries, hstart, hoffset, hcount⟩

/-- An archive is read back to its record. -/
theorem decode?_encode (r : Record) (hsmall : size r ≤ 2 ^ 31) : decode? (encode r) = some r := by
  obtain ⟨hnames, hentries, hstart, hoffset, hcount⟩ := lies_parts (lies_zero (encode r))
  have hle : namesSize r.values ≤ entriesAt r.values := le_aligned _
  have hmod : entriesAt r.values % 8 = 0 := aligned_mod _
  have hroot : rootAt r.values = entriesAt r.values + 16 * r.values.length := rfl
  have hsize : size r = rootAt r.values + 16 := rfl
  have hread : readEntries? (encode r) (entriesAt r.values) r.values.length 0
      (entriesAt r.values) = some r.values := by
    refine readEntries?_of_lies r.values hentries hnames ?_ le_rfl ?_ ?_
    · omega
    · rw [length_encode]
      simp only [cell]
      omega
    · rwa [length_encode]
  have hback : offsetOf (word (encode r) (rootAt r.values + 8) 4)
      = (entriesAt r.values : Int) - (rootAt r.values + 8) := by
    rw [word_of_lies hoffset, Nat.mod_eq_of_lt (ofOffset_lt _),
      offsetOf_ofOffset (by omega) (by omega)]
  have hlength : word (encode r) (rootAt r.values + 12) 4 = r.values.length := by
    rw [word_of_lies hcount]
    omega
  have hvalue : word (encode r) (rootAt r.values) 8 = ofValue r.start := by
    rw [word_of_lies hstart, Nat.mod_eq_of_lt (ofValue_lt _)]
  have hfirstAt : (rootAt r.values + 8 : Int) + (entriesAt r.values - (rootAt r.values + 8))
      = entriesAt r.values := by omega
  have hrootAt : size r - 16 = rootAt r.values := by omega
  rw [decode?, cell]
  rw [length_encode, if_neg (by omega), hrootAt]
  simp only [hback, hlength, hfirstAt]
  rw [if_pos (by omega), Int.toNat_natCast, hread, hvalue, valueOf_ofValue]
  rfl

end Gauge.Archive
