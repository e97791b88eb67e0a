import MuonDetector.I2c.Device
import Mathlib.Algebra.Group.Nat.Defs
import Mathlib.Data.List.Perm.Basic

/-!
# Page writes to an EEPROM

`writeBytes` cuts the data at the page boundaries of the chip, since a write that
crosses one wraps to the beginning of its page. Where the last page begins it
compares the address with the length of the data, which is the end of the data only
for data that begins at address 0. The two chips differ in the width of the
addresses, in the size of the page and in the bytes that a write begins with.
-/

namespace MuonDetector.I2c.Eeprom

open MuonDetector.I2c.Device

structure Chip where
  addrBits : Nat
  pageSize : Nat
  /-- The number of bytes that the chip stores. -/
  size : Nat
  /-- `writeReg` of the chip. -/
  writeReg : (Nat → Int) → Nat → List UInt8 → I2cDevice → Int × I2cDevice
  page_pos : 0 < pageSize
  page_fits : pageSize < 2 ^ addrBits
  size_fits : size ≤ 2 ^ addrBits
  length_fits : size < 2 ^ 16

def EEPROM24AA02 : Chip where
  addrBits := 8
  pageSize := 8
  size := 256
  writeReg sys reg buf d := Device.writeReg sys (UInt8.ofNat reg) buf d
  page_pos := by decide
  page_fits := by decide
  size_fits := by decide
  length_fits := by decide

/-- `writeReg` of the larger chip, with two address bytes. -/
def writeReg16 (sys : Nat → Int) (reg : UInt16) (buf : List UInt8) (d : I2cDevice) :
    Int × I2cDevice :=
  let r := write sys d ((reg >>> 8).toUInt8 :: (reg &&& 0xff).toUInt8 :: buf)
  (r.1 - 2, r.2)

def EEPROM24LC64 : Chip where
  addrBits := 16
  pageSize := 32
  size := 8192
  writeReg sys reg buf d := writeReg16 sys (UInt16.ofNat reg) buf d
  page_pos := by decide
  page_fits := by decide
  size_fits := by decide
  length_fits := by decide

/-- A call of `writeReg`: where it begins in the chip and in the data, its bytes, and the
number of them that were transferred. -/
structure PageWrite where
  addr : Nat
  offset : Nat
  bytes : List UInt8
  transferred : Int
  deriving DecidableEq, Repr

inductive Outcome where
  | returned (success : Bool) (writes : List PageWrite)
  /-- The loop reads beyond the data. -/
  | overrun
  /-- The loop is still running. -/
  | running
  deriving DecidableEq, Repr

section

variable (chip : Chip) (sys : Nat → Int) (addr : Nat) (data : List UInt8)

/-- The number of bytes of the write at `currAddr`. -/
def pageRemainder (currAddr : Nat) : Nat :=
  let remainder := chip.pageSize - currAddr % chip.pageSize
  if currAddr + remainder ≥ data.length then
    (((data.length : Int) - currAddr) % (2 ^ chip.addrBits : Nat)).toNat
  else remainder

def writeLoop : Nat → Nat → Bool → List PageWrite → I2cDevice → Outcome
  | 0, _, _, _, _ => .running
  | fuel + 1, i, success, writes, d =>
    if i < data.length then
      let currAddr := (addr + i) % 2 ^ chip.addrBits
      let n := pageRemainder chip data currAddr
      if data.length < i + n then .overrun
      else
        let bytes := (data.drop i).take n
        let r := chip.writeReg sys currAddr bytes d
        writeLoop fuel ((i + n) % 2 ^ 16) (success && decide (r.1 = n))
          (writes ++ [⟨currAddr, i, bytes, r.1⟩]) r.2
    else .returned success writes

/-- The loop of `writeBytes` for as many rounds as there is `fuel`. -/
def writeBytes (fuel : Nat) (d : I2cDevice) : Outcome :=
  writeLoop chip sys addr data fuel 0 true [] d

end

/-! ## What page writes are to be -/

/-- The addresses of a write with the bytes that it brings there. -/
def PageWrite.cells (w : PageWrite) : List (Nat × UInt8) :=
  w.bytes.mapIdx fun k b => (w.addr + k, b)

/-- The data at its place. -/
def placed (addr : Nat) (data : List UInt8) : List (Nat × UInt8) :=
  data.mapIdx fun k b => (addr + k, b)

/-- A write of 1 to page-size bytes of the data, inside one page. -/
structure InPage (chip : Chip) (data : List UInt8) (w : PageWrite) : Prop where
  pos : 0 < w.bytes.length
  size : w.bytes.length ≤ chip.pageSize
  page : w.addr % chip.pageSize + w.bytes.length ≤ chip.pageSize
  inside : w.offset + w.bytes.length ≤ data.length
  part : w.bytes = (data.drop w.offset).take w.bytes.length

structure Stores (chip : Chip) (addr : Nat) (data : List UInt8) (success : Bool)
    (writes : List PageWrite) : Prop where
  cells : (writes.flatMap PageWrite.cells).Perm (placed addr data)
  pages : ∀ w ∈ writes, InPage chip data w
  status : success = true ↔ ∀ w ∈ writes, w.transferred = w.bytes.length

/-! ## Data at address 0 -/

variable {chip : Chip} {sys : Nat → Int}

theorem pageRemainder_zero {data : List UInt8} {i : Nat} (hi : i < data.length) :
    pageRemainder chip data i = min (chip.pageSize - i % chip.pageSize) (data.length - i) := by
  have hfits := chip.page_fits
  simp only [pageRemainder]
  split
  · rw [Int.emod_eq_of_lt (by omega) (by omega)]
    omega
  · omega

/-- The bytes up to `i` have been written. -/
structure Written (chip : Chip) (data : List UInt8) (i : Nat) (success : Bool)
    (writes : List PageWrite) : Prop where
  bound : i ≤ data.length
  cells : writes.flatMap PageWrite.cells = placed 0 (data.take i)
  pages : ∀ w ∈ writes, InPage chip data w
  status : success = true ↔ ∀ w ∈ writes, w.transferred = w.bytes.length

theorem placed_append (addr : Nat) (xs ys : List UInt8) :
    placed addr (xs ++ ys) = placed addr xs ++ placed (addr + xs.length) ys := by
  rw [placed, placed, placed, List.mapIdx_append]
  congr 2
  funext k b
  rw [Nat.add_assoc, Nat.add_comm xs.length]

/-- One more page. -/
theorem Written.step {data : List UInt8} {i n : Nat} {success : Bool} {writes : List PageWrite}
    (h : Written chip data i success writes) (hpos : 0 < n) (hn : i + n ≤ data.length)
    (hpage : i % chip.pageSize + n ≤ chip.pageSize) (transferred : Int) :
    Written chip data (i + n) (success && decide (transferred = n))
      (writes ++ [⟨i, i, (data.drop i).take n, transferred⟩]) := by
  have hlen : ((data.drop i).take n).length = n := by
    rw [List.length_take, List.length_drop]
    omega
  refine ⟨hn, ?_, ?_, ?_⟩
  · have htake : (data.take i).length = i := by rw [List.length_take]; omega
    rw [List.flatMap_append, h.cells, List.take_add, placed_append, htake]
    simp [PageWrite.cells, placed]
  · intro w hw
    rcases List.mem_append.mp hw with hold | hnew
    · exact h.pages w hold
    · rw [List.mem_singleton.mp hnew]
      refine ⟨?_, ?_, ?_, ?_, by rw [hlen]⟩ <;> simp only [hlen] <;> omega
  · simp only [Bool.and_eq_true, h.status, decide_eq_true_eq, List.mem_append, List.mem_singleton,
      or_imp, forall_and, forall_eq, hlen]

theorem writeLoop_returns {data : List UInt8} (hsize : data.length ≤ chip.size) (n : Nat) :
    ∀ {i success writes} (d : I2cDevice), Written chip data i success writes →
      data.length ≤ i + n → ∃ success' writes',
        writeLoop chip sys 0 data (n + 1) i success writes d = .returned success' writes' ∧
        Written chip data data.length success' writes' := by
  induction n with
  | zero =>
    intro i success writes d h hn
    have hi : i = data.length := by have := h.bound; omega
    subst hi
    exact ⟨success, writes, by simp [writeLoop], h⟩
  | succ n ih =>
    intro i success writes d h hn
    by_cases hi : i < data.length
    · have hfits := chip.size_fits
      have hlength := chip.length_fits
      have hmod := Nat.mod_lt i chip.page_pos
      let m := pageRemainder chip data i
      have hm : m = min (chip.pageSize - i % chip.pageSize) (data.length - i) :=
        pageRemainder_zero hi
      have haddr : (0 + i) % 2 ^ chip.addrBits = i := by
        rw [Nat.zero_add]
        exact Nat.mod_eq_of_lt (by omega)
      have hnext : (i + m) % 2 ^ 16 = i + m := Nat.mod_eq_of_lt (by omega)
      have hover : ¬ data.length < i + m := by omega
      rw [writeLoop]
      simp only [hi, if_true, haddr]
      rw [if_neg hover, hnext]
      exact ih _ (h.step (by omega) (by omega) (by omega) _) (by omega)
    · have hi : i = data.length := by have := h.bound; omega
      subst hi
      exact ⟨success, writes, by simp [writeLoop], h⟩

theorem writeBytes_stores {data : List UInt8} (hsize : data.length ≤ chip.size) (d : I2cDevice) :
    ∃ success writes, writeBytes chip sys 0 data (data.length + 1) d = .returned success writes ∧
      Stores chip 0 data success writes := by
  have hstart : Written chip data 0 true [] :=
    ⟨Nat.zero_le _, rfl, by simp, by simp⟩
  obtain ⟨success, writes, hret, hw⟩ := writeLoop_returns hsize data.length d hstart (by omega)
  refine ⟨success, writes, hret, ?_, hw.pages, hw.status⟩
  rw [hw.cells, List.take_length]

/-! ## Data at any other address -/

/-- A write that does not reach beyond the data does not reach its end either. -/
theorem pageRemainder_short {addr i : Nat} {data : List UInt8} (haddr : 0 < addr)
    (hsize : addr + data.length ≤ chip.size) (hi : i < data.length)
    (hover : ¬ data.length < i + pageRemainder chip data (addr + i)) :
    i + pageRemainder chip data (addr + i) < data.length := by
  have hfits := chip.size_fits
  have hmod := Nat.mod_lt (addr + i) chip.page_pos
  simp only [pageRemainder] at hover ⊢
  split at hover
  case isFalse hpage =>
    rw [if_neg hpage]
    omega
  case isTrue hpage =>
    rw [if_pos hpage]
    by_cases hle : addr + i ≤ data.length
    · -- short by the address at which the data begins
      rw [Int.emod_eq_of_lt (by omega) (by omega)]
      omega
    · -- the difference is negative and wraps
      have hwrap : ((data.length : Int) - (addr + i : Nat)) % (2 ^ chip.addrBits : Nat) =
          (data.length : Int) - (addr + i : Nat) + (2 ^ chip.addrBits : Nat) := by
        rw [← Int.add_emod_right, Int.emod_eq_of_lt (by omega) (by omega)]
      rw [hwrap] at hover
      omega

/-- Once the loop is inside the data it stays there or reads beyond it. -/
theorem writeLoop_not_returned {addr : Nat} {data : List UInt8} (haddr : 0 < addr)
    (hsize : addr + data.length ≤ chip.size) (fuel : Nat) :
    ∀ {i} success writes (d : I2cDevice), i < data.length →
      ∀ success' writes',
        writeLoop chip sys addr data fuel i success writes d ≠ .returned success' writes' := by
  have hfits := chip.size_fits
  have hlength := chip.length_fits
  induction fuel with
  | zero => intro i success writes d _ success' writes' h; cases h
  | succ fuel ih =>
    intro i success writes d hi success' writes' h
    have hcurr : (addr + i) % 2 ^ chip.addrBits = addr + i := Nat.mod_eq_of_lt (by omega)
    rw [writeLoop] at h
    simp only [hi, if_true, hcurr] at h
    split at h
    · cases h
    case isFalse hover =>
      refine ih _ _ _ ?_ success' writes' h
      have hstay := pageRemainder_short haddr hsize hi hover
      rw [Nat.mod_eq_of_lt (by omega)]
      exact hstay

theorem stores_iff {addr : Nat} {data : List UInt8} (hsize : addr + data.length ≤ chip.size)
    (d : I2cDevice) :
    (∃ fuel success writes, writeBytes chip sys addr data fuel d = .returned success writes ∧
      Stores chip addr data success writes) ↔ addr = 0 ∨ data = [] := by
  constructor
  · rintro ⟨fuel, success, writes, hret, -⟩
    by_contra hno
    obtain ⟨haddr, hdata⟩ := not_or.mp hno
    exact writeLoop_not_returned (Nat.pos_of_ne_zero haddr) hsize fuel true [] d
      (List.length_pos_of_ne_nil hdata) success writes hret
  · rintro (rfl | rfl)
    · obtain ⟨success, writes, hret, hs⟩ :=
        @writeBytes_stores chip sys data (by omega) d
      exact ⟨_, success, writes, hret, hs⟩
    · exact ⟨1, true, [], rfl, .refl _, by simp, by simp⟩

/-- **Page writes store the data exactly when it begins at address 0 or is empty.** -/
theorem page_writes_iff (sys : Nat → Int) (addr : Nat) (data : List UInt8) (d : I2cDevice) :
    ∀ chip ∈ [EEPROM24AA02, EEPROM24LC64], addr + data.length ≤ chip.size →
      ((∃ fuel success writes, writeBytes chip sys addr data fuel d = .returned success writes ∧
        Stores chip addr data success writes) ↔ addr = 0 ∨ data = []) :=
  fun _ _ hsize => stores_iff hsize d

/-- Ten bytes at the beginning of the larger chip. -/
theorem page_writes_iff_start :
    (∃ fuel success writes,
      writeBytes EEPROM24LC64 (fun _ => 12) 0 (List.replicate 10 0xAA) fuel { fHandle := 3 } =
        .returned success writes ∧
      Stores EEPROM24LC64 0 (List.replicate 10 0xAA) success writes) ↔
    (0 = 0 ∨ List.replicate 10 (0xAA : UInt8) = []) :=
  page_writes_iff (fun _ => 12) 0 _ { fHandle := 3 } EEPROM24LC64 (by simp) (by decide)

/-- Four bytes at address 4: the loop goes on with writes of no byte. -/
theorem page_writes_not_stored :
    ¬ ∀ (sys : Nat → Int) (addr : Nat) (data : List UInt8) (d : I2cDevice),
      ∀ chip ∈ [EEPROM24AA02, EEPROM24LC64], addr + data.length ≤ chip.size →
        ∃ fuel success writes, writeBytes chip sys addr data fuel d = .returned success writes ∧
          Stores chip addr data success writes := by
  intro h
  have hstored := h (fun _ => 1) 4 [1, 2, 3, 4] { fHandle := 3 } EEPROM24AA02 (by simp) (by decide)
  rw [stores_iff (by decide)] at hstored
  simp at hstored

end MuonDetector.I2c.Eeprom
