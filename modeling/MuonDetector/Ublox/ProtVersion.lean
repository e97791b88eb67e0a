import MuonDetector.Ublox.MessageProcessor

/-!
# Protocol versions

The version that a version message reports, parsed from its text.
-/

namespace MuonDetector.Ublox.ProtVersion

open MuonDetector.Ublox.MessageProcessor

structure UbxProtVersion where
  major : UInt32
  minor : UInt32
  deriving DecidableEq, Repr

/-- `operator<`. -/
def UbxProtVersion.less (v other : UbxProtVersion) : Bool :=
  if v.major ≠ other.major then v.major < other.major else v.minor < other.minor

def isSpace (ch : UInt8) : Bool := ch = 0x20 || (0x09 ≤ ch && ch ≤ 0x0d)

/-- `std::from_chars` for `unsigned`: the number and what is left, or an error. -/
def fromChars (text : List UInt8) : Option (UInt32 × List UInt8) :=
  let digits := text.takeWhile isDigit
  let value := digits.foldl (fun n ch => 10 * n + (ch.toNat - 0x30)) 0
  if digits = [] ∨ 2 ^ 32 ≤ value then none
  else some (UInt32.ofNat value, text.dropWhile isDigit)

def getProtVersion (text : List UInt8) : Option UbxProtVersion :=
  let text := (text.dropWhile isSpace).rdropWhile isSpace
  if text = [] then none
  else
    match text.findIdx? (· = 0x2e) with
    | none =>
      match fromChars text with
      | some (major, []) => some ⟨major, 0⟩
      | _ => none
    | some dotPos =>
      let majorPart := text.take dotPos
      let minorPart := text.drop (dotPos + 1)
      if majorPart = [] ∨ minorPart = [] then none
      else
        match fromChars majorPart, fromChars minorPart with
        | some (major, []), some (minor, []) => some ⟨major, minor⟩
        | _, _ => none

/-- `"  23.01 "`. -/
example : getProtVersion [0x20, 0x20, 0x32, 0x33, 0x2e, 0x30, 0x31, 0x20] = some ⟨23, 1⟩ := by
  decide

end MuonDetector.Ublox.ProtVersion
