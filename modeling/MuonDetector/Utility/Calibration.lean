import MuonDetector.Library.Bytes
import MuonDetector.Library.Image
import MuonDetector.Library.Texts

/-!
# The calibration of the detector

The calibration is a list of named items whose addresses in the EEPROM follow from
the sizes of their types. `writeToEeprom` counts the write, puts every item into the
image of the whole EEPROM and writes the image; `readFromEeprom` reads the image back
and, if the header is there, takes the items from it. A value is text in between, and
streams convert it.
-/

namespace MuonDetector.Utility.Calibration

open MuonDetector.Library MuonDetector.Library.Bytes

def CALIB_HEADER : Nat := 0x2019

abbrev EepBuffer := Vector UInt8 256

structure CalibStruct where
  name : String
  type : String
  address : UInt16
  value : List Char
  deriving DecidableEq, Repr

/-- The items with their types and default values. -/
def CALIBITEMS : List (String × String × List Char) :=
  [("VERSION", "UINT8", ['3']), ("FEATURE_FLAGS", "UINT8", ['0']),
    ("CALIB_FLAGS", "UINT8", ['0']), ("DATE", "UINT32", ['0']),
    ("RSENSE", "UINT16", ['1', '0', '0']), ("VDIV", "UINT16", ['1', '1', '0', '0']),
    ("COEFF0", "FLOAT", ['0', '.', '0']), ("COEFF1", "FLOAT", ['1', '.', '0']),
    ("COEFF2", "FLOAT", ['0', '.', '0']), ("COEFF3", "FLOAT", ['1', '.', '0']),
    ("WRITE_CYCLES", "UINT32", ['1'])]

/-- `std::toupper` on every character, in the C locale. -/
def toUpper (text : String) : String := String.ofList (text.toList.map Char.toUpper)

def getTypeSize (type : String) : UInt8 :=
  let str := toUpper type
  if str = "UINT8" then 1
  else if str = "UINT16" then 2
  else if str = "UINT32" then 4
  else if str = "FLOAT" then 4
  else if str = "INT8" then 1
  else if str = "INT16" then 2
  else if str = "INT32" then 4
  else 0

/-- The items from `addr` on. -/
def calibItems : UInt8 → List (String × String × List Char) → List CalibStruct
  | _, [] => []
  | addr, (name, type, value) :: rest =>
    ⟨name, type, addr.toUInt16, value⟩ :: calibItems (addr + getTypeSize type) rest

/-- The range of the calibration begins behind the header. -/
def buildCalibList : List CalibStruct := calibItems 0x02 CALIBITEMS

/-! ## Values as text -/

/-- What streams make of floats, and what a variable holds that nothing has been read into. -/
structure Streams where
  floatBits : List Char → UInt32
  floatText : UInt32 → List Char
  untouched : UInt32

/-- The digits behind white space and a sign, and whether the sign is a minus. -/
def signedDigits : List Char → Bool × List Char
  | [] => (false, [])
  | c :: rest =>
    (c = '-', (if c = '-' ∨ c = '+' then rest else c :: rest).takeWhile Char.isDigit)

section

variable (s : Streams)

/-- `istr >> value` for an `unsigned int`. -/
def getUnsigned (text : List Char) : Nat :=
  let text := text.dropWhile Texts.isBlank
  if text = [] then s.untouched.toNat
  else
    let (negative, digits) := signedDigits text
    let v := Nat.ofDigitChars 10 digits 0
    if digits = [] then 0
    else if 2 ^ 32 ≤ v then 2 ^ 32 - 1
    else if negative then (2 ^ 32 - v) % 2 ^ 32 else v

/-- `istr >> value` for an `int`. -/
def getInt (text : List Char) : Int :=
  let text := text.dropWhile Texts.isBlank
  if text = [] then s.untouched.toInt32.toInt
  else
    let (negative, digits) := signedDigits text
    let v : Int := Nat.ofDigitChars 10 digits 0
    if digits = [] then 0
    else if negative then max (-2 ^ 31) (-v) else min (2 ^ 31 - 1) v

/-- `std::to_string` of an unsigned number. -/
def unsignedText (v : Nat) : List Char := Nat.toDigits 10 v

def intText (v : Int) : List Char :=
  if v < 0 then '-' :: unsignedText v.natAbs else unsignedText v.natAbs

/-- The bytes as a number in two's complement. -/
def signedValue (bytes : List UInt8) : Int :=
  if 2 * littleValue bytes < 256 ^ bytes.length then littleValue bytes
  else littleValue bytes - (256 ^ bytes.length : Nat)

/-- The bytes that `updateBuffer` writes for an item. -/
def itemBytes (item : CalibStruct) : List UInt8 :=
  let value := item.value
  if item.type = "UINT8" then littleBytes 1 (getUnsigned s value)
  else if item.type = "UINT16" then littleBytes 2 (getUnsigned s value)
  else if item.type = "UINT32" then littleBytes 4 (getUnsigned s value)
  else if item.type = "FLOAT" then littleBytes 4 (s.floatBits value).toNat
  else if item.type = "INT8" then littleBytes 1 (getInt s value)
  else if item.type = "INT16" then littleBytes 2 (getInt s value)
  else if item.type = "INT32" then littleBytes 4 (getInt s value)
  else []

/-- The value that `readFromEeprom` gives to an item. -/
def itemText (buf : EepBuffer) (item : CalibStruct) : List Char :=
  let addr := item.address.toNat
  if item.type = "UINT8" then unsignedText (littleValue (Image.load buf addr 1))
  else if item.type = "UINT16" then unsignedText (littleValue (Image.load buf addr 2))
  else if item.type = "UINT32" then unsignedText (littleValue (Image.load buf addr 4))
  else if item.type = "FLOAT" then
    s.floatText (UInt32.ofNat (littleValue (Image.load buf addr 4)))
  else if item.type = "INT8" then intText (signedValue (Image.load buf addr 1))
  else if item.type = "INT16" then intText (signedValue (Image.load buf addr 2))
  else if item.type = "INT32" then intText (signedValue (Image.load buf addr 4))
  else item.value

end

/-! ## The object and the EEPROM -/

/-- An EEPROM whose transfers succeed or not, with what a failed write leaves in it. -/
structure Eeprom where
  content : EepBuffer
  present : Bool := true
  readable : Bool := true
  writable : Bool := true
  torn : EepBuffer := Vector.replicate 256 0

structure ShowerDetectorCalib where
  calibList : List CalibStruct
  buffer : EepBuffer
  eepromValid : Bool := false
  valid : Bool := false
  deriving DecidableEq

def invalidCalibStruct : CalibStruct := ⟨"", "", 0, []⟩

def getCalibItem (c : ShowerDetectorCalib) (name : String) : CalibStruct :=
  (c.calibList.find? fun item => item.name = toUpper name).getD invalidCalibStruct

/-- The first item of the name is replaced. -/
def replaceItem (name : String) (item : CalibStruct) : List CalibStruct → List CalibStruct
  | [] => []
  | i :: rest => if i.name = name then item :: rest else i :: replaceItem name item rest

def setCalibItem (c : ShowerDetectorCalib) (name : String) (item : CalibStruct) :
    ShowerDetectorCalib :=
  { c with calibList := replaceItem (toUpper name) item c.calibList }

/-- The member function template, for an unsigned value. -/
def setCalibItemValue (c : ShowerDetectorCalib) (name : String) (value : UInt32) :
    ShowerDetectorCalib :=
  let item := getCalibItem c name
  if item.name = name then
    setCalibItem c name { item with value := unsignedText value.toNat }
  else c

section

variable (s : Streams)

def readFromEeprom (eep : Eeprom) (c : ShowerDetectorCalib) : Bool × ShowerDetectorCalib :=
  if !eep.readable then (false, { c with buffer := Vector.replicate 256 0, eepromValid := false })
  else
    let c := { c with buffer := eep.content }
    if littleValue (Image.load c.buffer 0 2) = CALIB_HEADER then
      (true, { c with
        valid := true
        calibList := c.calibList.map fun i => { i with value := itemText s c.buffer i } })
    else (true, { c with valid := false })

/-- The constructor. -/
def init (eep : Eeprom) : ShowerDetectorCalib :=
  let c : ShowerDetectorCalib :=
    { calibList := buildCalibList, buffer := Vector.replicate 256 0 }
  if eep.present then
    let r := readFromEeprom s eep c
    { r.2 with eepromValid := r.1 }
  else { c with eepromValid := false }

/-- The header and the items, each at its address. -/
def fields (items : List CalibStruct) : List Image.Field :=
  (0, littleBytes 2 CALIB_HEADER) :: items.map fun i => (i.address.toNat, itemBytes s i)

def updateBuffer (c : ShowerDetectorCalib) : ShowerDetectorCalib :=
  { c with buffer := Image.putAll c.buffer (fields s c.calibList) }

def writeToEeprom (eep : Eeprom) (c : ShowerDetectorCalib) :
    Bool × ShowerDetectorCalib × Eeprom :=
  if !c.eepromValid then (false, c, eep)
  else
    let item := getCalibItem c "WRITE_CYCLES"
    let cycleCounter := UInt32.ofNat (getUnsigned s item.value) + 1
    let c := updateBuffer s (setCalibItemValue c "WRITE_CYCLES" cycleCounter)
    if eep.writable then (true, c, { eep with content := c.buffer })
    else (false, c, { eep with content := eep.torn })

end

end MuonDetector.Utility.Calibration
