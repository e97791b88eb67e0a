import MuonDetector.Utility.Calibration
import Mathlib.Data.List.TakeWhile

/-!
# Values that come back from the EEPROM

The ranges of the items and of the header are apart from each other and from the
serial number, so that every item is read back from its own bytes, and an integer
in the range of its type is the same text again.
-/

namespace MuonDetector.Utility.CalibrationRoundTrip

open MuonDetector.Library MuonDetector.Library.Bytes MuonDetector.Utility.Calibration

/-! ## The layout -/

/-- Where an item is stored: its address and its size. -/
def range (item : CalibStruct) : Nat × Nat := (item.address.toNat, (getTypeSize item.type).toNat)

def RangesApart (r r' : Nat × Nat) : Prop := r.1 + r.2 ≤ r'.1 ∨ r'.1 + r'.2 ≤ r.1

instance : DecidableRel RangesApart := fun r r' =>
  inferInstanceAs (Decidable (r.1 + r.2 ≤ r'.1 ∨ r'.1 + r'.2 ≤ r.1))

/-- The header, the items and the serial number do not overlap. -/
theorem layout :
    (((0, 2) :: buildCalibList.map range) ++ [(250, 6)]).Pairwise RangesApart := by
  decide +kernel

def IsInteger (item : CalibStruct) : Prop := item.type ≠ "FLOAT"

instance : DecidablePred IsInteger := fun item =>
  inferInstanceAs (Decidable (item.type ≠ "FLOAT"))

/-- The types of the items of the list. -/
theorem type_of_mem : ∀ item ∈ buildCalibList,
    item.type ∈ ["UINT8", "UINT16", "UINT32", "FLOAT"] := by
  decide +kernel

/-! ## Values of one item -/

/-- A canonical decimal in the range of a type of `size` bytes. -/
def InRange (size : Nat) (text : List Char) : Prop :=
  ∃ v < 256 ^ size, text = Nat.toDigits 10 v

theorem isDigit_of_mem {v : Nat} {c : Char} (h : c ∈ Nat.toDigits 10 v) : c.isDigit = true :=
  Nat.isDigit_of_mem_toDigits (by decide) (by decide) h

theorem getUnsigned_toDigits (s : Streams) {v : Nat} (hv : v < 2 ^ 32) :
    getUnsigned s (Nat.toDigits 10 v) = v := by
  obtain ⟨c, rest, hcons⟩ := List.exists_cons_of_ne_nil (Nat.toDigits_ne_nil (n := v) (b := 10))
  have hdigit : c.isDigit = true := isDigit_of_mem (v := v) (by rw [hcons]; simp)
  have hspace : Texts.isBlank c = false := Texts.isBlank_of_isDigit hdigit
  have hsign : c ≠ '-' ∧ c ≠ '+' := by
    constructor <;> rintro rfl <;> exact absurd hdigit (by decide)
  have hdrop : (Nat.toDigits 10 v).dropWhile Texts.isBlank = c :: rest := by
    rw [hcons, List.dropWhile_cons_of_neg (by simp [hspace])]
  have htake : (c :: rest).takeWhile Char.isDigit = c :: rest := by
    rw [← hcons]
    exact List.takeWhile_eq_self_iff.mpr fun x hx => isDigit_of_mem hx
  have hvalue : Nat.ofDigitChars 10 (c :: rest) 0 = v := by
    rw [← hcons, Nat.ofDigitChars_ten_toDigits]
  have hfits : ¬ 2 ^ 32 ≤ v := by omega
  simp only [getUnsigned, hdrop, signedDigits, hsign.1, hsign.2, or_self, if_false, htake, hvalue,
    reduceCtorEq, decide_false, Bool.false_eq_true, hfits]

theorem littleValue_littleBytes_of_lt {n v : Nat} (hv : v < 256 ^ n) :
    littleValue (littleBytes n v) = v := by
  have h := littleValue_littleBytes n v
  have hpow : ((256 ^ n : Nat) : Int) = 256 ^ n := by push_cast; rfl
  rw [Int.emod_eq_of_lt (by omega) (by rw [← hpow]; exact_mod_cast hv)] at h
  exact_mod_cast h

theorem itemBytes_length (s : Streams) {item : CalibStruct}
    (h : item.type ∈ ["UINT8", "UINT16", "UINT32", "FLOAT"]) :
    (itemBytes s item).length = (getTypeSize item.type).toNat := by
  simp only [List.mem_cons, List.not_mem_nil, or_false] at h
  rcases h with h | h | h | h <;>
    rw [itemBytes, h] <;> simp only [String.reduceEq, if_true, if_false, littleBytes_length] <;>
    decide +kernel

/-- **An integer in its range is read back from the bytes written for it.** -/
theorem itemText_of_load (s : Streams) {buf : EepBuffer} {item : CalibStruct}
    (h : item.type ∈ ["UINT8", "UINT16", "UINT32", "FLOAT"]) (hint : IsInteger item)
    (hrange : InRange (getTypeSize item.type).toNat item.value)
    (hload : Image.load buf item.address.toNat (itemBytes s item).length = itemBytes s item) :
    itemText s buf item = item.value := by
  obtain ⟨v, hv, hvalue⟩ := hrange
  simp only [List.mem_cons, List.not_mem_nil, or_false] at h
  have hone (n : Nat) (hn : n ≤ 4) (hsize : (getTypeSize item.type).toNat = n)
      (hbytes : itemBytes s item = littleBytes n (getUnsigned s item.value)) :
      unsignedText (littleValue (Image.load buf item.address.toNat n)) = item.value := by
    rw [hsize] at hv
    have hmax : 256 ^ n ≤ 2 ^ 32 := by
      have hpow : 256 ^ n ≤ 256 ^ 4 := Nat.pow_le_pow_right (by decide) hn
      omega
    rw [hbytes, littleBytes_length, hvalue, getUnsigned_toDigits s (by omega)] at hload
    rw [hload, littleValue_littleBytes_of_lt hv, hvalue, unsignedText]
  rcases h with h | h | h | h
  · simp only [itemText, h, if_true]
    exact hone 1 (by decide) (by rw [h]; decide +kernel) (by rw [itemBytes, h]; rfl)
  · simp only [itemText, h, String.reduceEq, if_true, if_false]
    exact hone 2 (by decide) (by rw [h]; decide +kernel) (by rw [itemBytes, h]; rfl)
  · simp only [itemText, h, String.reduceEq, if_true, if_false]
    exact hone 4 (by decide) (by rw [h]; decide +kernel) (by rw [itemBytes, h]; rfl)
  · exact absurd h hint

/-! ## The whole list -/

/-- The items of the list with the given values. -/
def assigned (values : String → List Char) : List CalibStruct :=
  buildCalibList.map fun item => { item with value := values item.name }

/-- The object with these values, as the references of `calibList` leave it. -/
def assign (c : ShowerDetectorCalib) (values : String → List Char) : ShowerDetectorCalib :=
  { c with calibList := c.calibList.map fun item => { item with value := values item.name } }

/-- The integer items hold canonical decimals in their ranges. -/
def Assignable (values : String → List Char) : Prop :=
  ∀ item ∈ buildCalibList, IsInteger item →
    InRange (getTypeSize item.type).toNat (values item.name)

/-- The text of the next write cycle. -/
def nextCycle (text : List Char) : List Char :=
  Nat.toDigits 10 ((Nat.ofDigitChars 10 text 0 + 1) % 2 ^ 32)

/-- The values that a write leaves. -/
def counted (values : String → List Char) (name : String) : List Char :=
  if name = "WRITE_CYCLES" then nextCycle (values name) else values name

theorem init_list (s : Streams) (eep : Eeprom) (values : String → List Char) :
    (assign (init s eep) values).calibList = assigned values := by
  have hkept (f : CalibStruct → List Char) :
      (buildCalibList.map fun i => { i with value := f i }).map
        (fun item => { item with value := values item.name }) = assigned values := by
    rw [List.map_map]
    rfl
  simp only [assign, init, readFromEeprom]
  split
  · split
    · exact hkept fun i => i.value
    · split
      · exact hkept _
      · exact hkept fun i => i.value
  · exact hkept fun i => i.value

theorem assignable_counted {values : String → List Char} (h : Assignable values) :
    Assignable (counted values) := by
  intro item hitem hint
  by_cases hname : item.name = "WRITE_CYCLES"
  · have htype : ∀ i ∈ buildCalibList, i.name = "WRITE_CYCLES" →
        (getTypeSize i.type).toNat = 4 := by decide +kernel
    rw [counted, if_pos hname, htype item hitem hname]
    exact ⟨_, Nat.mod_lt _ (by decide), rfl⟩
  · rw [counted, if_neg hname]
    exact h item hitem hint

/-- The item of the write counter. -/
def writeCycles (value : List Char) : CalibStruct := ⟨"WRITE_CYCLES", "UINT32", 29, value⟩

theorem find_writeCycles (values : String → List Char) :
    (assigned values).find? (fun item => item.name = toUpper "WRITE_CYCLES") =
      some (writeCycles (values "WRITE_CYCLES")) := by
  have hupper : toUpper "WRITE_CYCLES" = "WRITE_CYCLES" := by decide +kernel
  have hfind : buildCalibList.find? (fun item => item.name = "WRITE_CYCLES") =
      some (writeCycles ['1']) := by decide +kernel
  rw [hupper, assigned, List.find?_map]
  exact congrArg (Option.map fun item : CalibStruct => { item with value := values item.name })
    hfind

theorem replaceItem_map {f g : CalibStruct → CalibStruct} {name : String} {item : CalibStruct}
    {items : List CalibStruct} (hnodup : (items.map (·.name)).Nodup)
    (hf : ∀ i ∈ items, (f i).name = i.name) (hitem : ∀ i ∈ items, i.name = name → g i = item)
    (hother : ∀ i ∈ items, i.name ≠ name → g i = f i) :
    replaceItem name item (items.map f) = items.map g := by
  induction items with
  | nil => rfl
  | cons i items ih =>
    rw [List.map_cons, List.nodup_cons] at hnodup
    rw [List.map_cons, List.map_cons, replaceItem, hf i List.mem_cons_self]
    by_cases hname : i.name = name
    · rw [if_pos hname, hitem i List.mem_cons_self hname]
      congr 1
      refine List.map_congr_left fun j hj => (hother j (List.mem_cons_of_mem i hj) ?_).symm
      intro hj'
      exact hnodup.1 (List.mem_map.mpr ⟨j, hj, hj'.trans hname.symm⟩)
    · rw [if_neg hname, hother i List.mem_cons_self hname]
      congr 1
      exact ih hnodup.2 (fun j hj => hf j (List.mem_cons_of_mem i hj))
        (fun j hj => hitem j (List.mem_cons_of_mem i hj))
        (fun j hj => hother j (List.mem_cons_of_mem i hj))

/-- Counting a write changes the value of the counter alone. -/
theorem count_write (s : Streams) {c : ShowerDetectorCalib} {values : String → List Char}
    (hlist : c.calibList = assigned values) (h : Assignable values) :
    (setCalibItemValue c "WRITE_CYCLES"
      (UInt32.ofNat (getUnsigned s (getCalibItem c "WRITE_CYCLES").value) + 1)).calibList =
      assigned (counted values) := by
  have hupper : toUpper "WRITE_CYCLES" = "WRITE_CYCLES" := by decide +kernel
  have hitem : getCalibItem c "WRITE_CYCLES" = writeCycles (values "WRITE_CYCLES") := by
    rw [getCalibItem, hlist, find_writeCycles]
    rfl
  obtain ⟨v, hv, htext⟩ := h (writeCycles ['1']) (by decide +kernel) (by decide +kernel)
  have hsize : (getTypeSize (writeCycles ['1']).type).toNat = 4 := by decide +kernel
  rw [hsize] at hv
  have hread : getUnsigned s (values "WRITE_CYCLES") = v := by
    rw [show values "WRITE_CYCLES" = Nat.toDigits 10 v from htext]
    exact getUnsigned_toDigits s (by omega)
  have hnext : unsignedText (UInt32.ofNat v + 1).toNat = nextCycle (values "WRITE_CYCLES") := by
    rw [show values "WRITE_CYCLES" = Nat.toDigits 10 v from htext, nextCycle,
      Nat.ofDigitChars_ten_toDigits, unsignedText, UInt32.toNat_add, UInt32.toNat_ofNat']
    congr 1
    have hone : UInt32.toNat 1 = 1 := rfl
    omega
  rw [setCalibItemValue, hitem]
  simp only [writeCycles, if_true]
  rw [hread, hnext, setCalibItem, hupper, hlist, assigned, assigned]
  refine replaceItem_map (by decide +kernel) (fun i _ => rfl) ?_ ?_
  · intro i hi hname
    have hwrite : ∀ j ∈ buildCalibList, j.name = "WRITE_CYCLES" → j.type = "UINT32" ∧
        j.address = 29 := by decide +kernel
    obtain ⟨htype, haddr⟩ := hwrite i hi hname
    rw [hname, htype, haddr, counted, if_pos rfl]
  · intro i hi hname
    rw [counted, if_neg hname]

/-! ## The image -/

theorem ranges_of_fields (s : Streams) (values : String → List Char) :
    (fields s (assigned values)).map (fun f => (f.1, f.2.length)) =
      (0, 2) :: buildCalibList.map range := by
  rw [fields, List.map_cons, assigned, List.map_map, List.map_map, littleBytes_length]
  refine congrArg (List.cons (0, 2)) (List.map_congr_left fun item hitem => ?_)
  have hlen := @itemBytes_length s { item with value := values item.name } (type_of_mem item hitem)
  exact congrArg (Prod.mk item.address.toNat) hlen

theorem fields_apart (s : Streams) (values : String → List Char) :
    (fields s (assigned values)).Pairwise Image.Apart := by
  have hranges := (List.pairwise_append.mp layout).1
  rw [← ranges_of_fields s values, List.pairwise_map] at hranges
  exact hranges

/-- No field reaches the serial number. -/
theorem fields_below_serial (s : Streams) (values : String → List Char) :
    ∀ f ∈ fields s (assigned values), f.1 + f.2.length ≤ 250 := by
  intro f hf
  have hmem : (f.1, f.2.length) ∈ (0, 2) :: buildCalibList.map range := by
    rw [← ranges_of_fields s values]
    exact List.mem_map_of_mem (f := fun f : Image.Field => (f.1, f.2.length)) hf
  have hbelow : ∀ r ∈ (0, 2) :: buildCalibList.map range, r.1 + r.2 ≤ 250 := by decide +kernel
  exact hbelow _ hmem

/-- An image with the fields in it gives the items back. -/
theorem read_fields (s : Streams) {eep : Eeprom} {img : EepBuffer} {values : String → List Char}
    (c : ShowerDetectorCalib) (hread : eep.readable = true)
    (hcontent : eep.content = Image.putAll img (fields s (assigned values)))
    (hlist : c.calibList = assigned values) (h : Assignable values) :
    (readFromEeprom s eep c).1 = true ∧
    (readFromEeprom s eep c).2.calibList.filter (fun i => decide (IsInteger i)) =
      (assigned values).filter fun i => decide (IsInteger i) := by
  have hload : ∀ f ∈ fields s (assigned values),
      Image.load eep.content f.1 f.2.length = f.2 := by
    intro f hf
    have hfits := fields_below_serial s values f hf
    rw [hcontent]
    exact Image.load_putAll (fields_apart s values) hf (by omega)
  have hheader : littleValue (Image.load eep.content 0 2) = CALIB_HEADER := by
    rw [show Image.load eep.content 0 2 = littleBytes 2 CALIB_HEADER from
      hload (0, littleBytes 2 CALIB_HEADER) List.mem_cons_self]
    exact littleValue_littleBytes_of_lt (by decide)
  simp only [readFromEeprom, hread, hheader, Bool.not_true, Bool.false_eq_true, if_false, if_true,
    true_and]
  rw [hlist, List.filter_map]
  have hsame : ((fun i => decide (IsInteger i)) ∘ fun i : CalibStruct =>
      { i with value := itemText s eep.content i }) = fun i => decide (IsInteger i) := rfl
  rw [hsame]
  refine (List.map_congr_left (g := id) fun i hi => ?_).trans (List.map_id _)
  obtain ⟨hi, hint⟩ := List.mem_filter.mp hi
  obtain ⟨item, hitem, rfl⟩ := List.mem_map.mp hi
  have hfield : (item.address.toNat, itemBytes s { item with value := values item.name }) ∈
      fields s (assigned values) :=
    List.mem_cons_of_mem _ (List.mem_map.mpr ⟨_, hi, rfl⟩)
  have htext := @itemText_of_load s _ { item with value := values item.name }
    (type_of_mem item hitem) (of_decide_eq_true hint) (h item hitem (of_decide_eq_true hint))
    (hload _ hfield)
  exact congrArg (fun value => { item with value := value }) htext

/-! ## Writing and reading -/

/-- What is to hold when the values are written and read back. -/
structure RoundTrip (s : Streams) (eep : Eeprom) (values : String → List Char) : Prop where
  wrote : (writeToEeprom s eep (assign (init s eep) values)).1 = true
  readBack : (readFromEeprom s (writeToEeprom s eep (assign (init s eep) values)).2.2
    (writeToEeprom s eep (assign (init s eep) values)).2.1).1 = true
  items : (readFromEeprom s (writeToEeprom s eep (assign (init s eep) values)).2.2
      (writeToEeprom s eep (assign (init s eep) values)).2.1).2.calibList.filter
        (fun i => decide (IsInteger i)) =
    (assigned (counted values)).filter fun i => decide (IsInteger i)
  apart : (((0, 2) :: buildCalibList.map range) ++ [(250, 6)]).Pairwise RangesApart
  serial : ∀ i : Fin 256, 250 ≤ i.val →
    (writeToEeprom s eep (assign (init s eep) values)).2.2.content[i] = eep.content[i]

/-- An object whose construction succeeded has the image of the EEPROM. -/
theorem init_valid {s : Streams} {eep : Eeprom} (h : (init s eep).eepromValid = true) :
    eep.readable = true ∧ (init s eep).buffer = eep.content := by
  simp only [init] at h ⊢
  split at h
  case isFalse => simp at h
  case isTrue hpresent =>
    cases hread : eep.readable with
    | false => simp [readFromEeprom, hread] at h
    | true =>
      refine ⟨rfl, ?_⟩
      rw [if_pos hpresent]
      simp only [readFromEeprom, hread, Bool.not_true, Bool.false_eq_true, if_false]
      split <;> rfl

theorem setCalibItemValue_kept (c : ShowerDetectorCalib) (name : String) (value : UInt32) :
    (setCalibItemValue c name value).buffer = c.buffer := by
  simp only [setCalibItemValue]
  split <;> rfl

/-- What a write leaves in the EEPROM and in the object. -/
theorem write_spec {s : Streams} {eep : Eeprom} {c : ShowerDetectorCalib}
    {values : String → List Char} (hvalid : c.eepromValid = true) (hwrite : eep.writable = true)
    (hlist : c.calibList = assigned values) (h : Assignable values) :
    (writeToEeprom s eep c).1 = true ∧
    (writeToEeprom s eep c).2.1.calibList = assigned (counted values) ∧
    (writeToEeprom s eep c).2.2.content =
      Image.putAll c.buffer (fields s (assigned (counted values))) ∧
    (writeToEeprom s eep c).2.2.readable = eep.readable := by
  have hcount := count_write s hlist h
  simp only [writeToEeprom, hvalid, hwrite, Bool.not_true, Bool.false_eq_true, if_false, if_true,
    updateBuffer, hcount, setCalibItemValue_kept, and_self]

/-- **Canonical integers in their ranges come back from the EEPROM, the write counter one
higher, and the serial number stays.** -/
theorem calibration_round_trip (s : Streams) (eep : Eeprom) (values : String → List Char)
    (hinit : (init s eep).eepromValid = true) (hwrite : eep.writable = true)
    (h : Assignable values) : RoundTrip s eep values := by
  obtain ⟨hread, hbuffer⟩ := init_valid hinit
  have hlist := init_list s eep values
  obtain ⟨hwrote, hcounted, hcontent, hreadable⟩ :=
    write_spec (c := assign (init s eep) values) (s := s) hinit hwrite hlist h
  obtain ⟨hok, hitems⟩ := read_fields s (writeToEeprom s eep (assign (init s eep) values)).2.1
    (hreadable.trans hread) hcontent hcounted (assignable_counted h)
  refine ⟨hwrote, hok, hitems, layout, ?_⟩
  intro i hi
  have houtside : ∀ f ∈ fields s (assigned (counted values)), ¬ f.Covers i.val := by
    rintro f hf ⟨-, hhi⟩
    have hbelow := fields_below_serial s (counted values) f hf
    omega
  have hbyte := @Image.getElem_putAll_outside _ (init s eep).buffer _ _ i.isLt houtside
  rw [hbuffer] at hbyte
  rw [hcontent]
  exact (congrArg (fun img : EepBuffer => (Image.putAll img _)[i]) hbuffer).trans hbyte

/-- Every integer set to 7, in an EEPROM that has not been written before. -/
theorem calibration_round_trip_first :
    RoundTrip ⟨fun _ => 0, fun _ => ['0'], 0⟩ { content := Vector.replicate 256 0xFF }
      fun _ => ['7'] := by
  refine calibration_round_trip _ _ _ (by decide +kernel) rfl fun item hitem _ => ⟨7, ?_, rfl⟩
  have hsize : ∀ i ∈ buildCalibList, 7 < 256 ^ (getTypeSize i.type).toNat := by decide +kernel
  exact hsize item hitem

end MuonDetector.Utility.CalibrationRoundTrip
