import MuonDetector.Library.Texts
import MuonDetector.Ublox.ProtVersion

/-!
# Which texts are versions

A version is one decimal number, or two with a dot between them, in the middle of white
space. Everything else is refused: a sign, a second dot, a part without a digit, space
inside, and a number that 32 bits have no room for.
-/

namespace MuonDetector.Ublox.VersionText

open MuonDetector.Library.Texts
open MuonDetector.Ublox.MessageProcessor MuonDetector.Ublox.ProtVersion

def digitValue (ch : UInt8) : Nat := ch.toNat - 0x30

def Digits (text : List UInt8) : Prop := text ≠ [] ∧ ∀ ch ∈ text, isDigit ch = true

/-- The version that a text without space around it writes. -/
inductive Denotes : List UInt8 → UbxProtVersion → Prop
  | major {digits : List UInt8} {v : UbxProtVersion} (hmajor : Digits digits)
      (major : decimal digitValue digits = v.major.toNat) (minor : v.minor = 0) :
      Denotes digits v
  | both {digits digits' : List UInt8} {v : UbxProtVersion} (hmajor : Digits digits)
      (hminor : Digits digits') (major : decimal digitValue digits = v.major.toNat)
      (minor : decimal digitValue digits' = v.minor.toNat) :
      Denotes (digits ++ 0x2e :: digits') v

/-! ## Digits -/

theorem isDigit_not_space {ch : UInt8} (h : isDigit ch = true) : isSpace ch = false := by
  have hall : ∀ b : Fin 256, isDigit (UInt8.ofFin b) = true → isSpace (UInt8.ofFin b) = false := by
    decide +kernel
  exact hall ch.toFin h

theorem Digits.no_dot {digits : List UInt8} (h : Digits digits) : 0x2e ∉ digits := by
  intro hmem
  have hdot := h.2 _ hmem
  cases hdot

/-- A number is read to the end of the text. -/
theorem fromChars_whole {text : List UInt8} {n : UInt32} :
    fromChars text = some (n, []) ↔ Digits text ∧ decimal digitValue text = n.toNat := by
  have hvalue : ∀ digits : List UInt8,
      digits.foldl (fun n ch => 10 * n + (ch.toNat - 0x30)) 0 = decimal digitValue digits :=
    foldl_eq_decimal digitValue
  unfold fromChars
  simp only [hvalue]
  constructor
  · intro h
    obtain ⟨hcond, heq⟩ := Option.ite_none_left_eq_some.mp h
    obtain ⟨rfl, hrest⟩ := Prod.mk.inj (Option.some.inj heq)
    have hdigits := List.dropWhile_eq_nil_iff.mp hrest
    rw [List.takeWhile_eq_self_iff.mpr hdigits, not_or, Nat.not_le] at hcond
    rw [List.takeWhile_eq_self_iff.mpr hdigits, UInt32.toNat_ofNat_of_lt' hcond.2]
    exact ⟨⟨hcond.1, hdigits⟩, rfl⟩
  · rintro ⟨⟨hne, hdigits⟩, hdecimal⟩
    have hlt : ¬ 2 ^ 32 ≤ n.toNat := Nat.not_le.mpr n.toNat_lt
    rw [List.takeWhile_eq_self_iff.mpr hdigits, List.dropWhile_eq_nil_iff.mpr hdigits, hdecimal,
      if_neg (not_or.mpr ⟨hne, hlt⟩), UInt32.ofNat_toNat]

/-! ## The two forms -/

/-- A version has digits at both ends. -/
theorem Denotes.ends {core : List UInt8} {v : UbxProtVersion} (h : Denotes core v) :
    ∃ hne : core ≠ [], isDigit (core.head hne) = true ∧ isDigit (core.getLast hne) = true := by
  cases h with
  | major hmajor _ _ =>
    exact ⟨hmajor.1, hmajor.2 _ (List.head_mem _), hmajor.2 _ (List.getLast_mem _)⟩
  | @both digits digits' _ hmajor hminor _ _ =>
    refine ⟨by simp, ?_, ?_⟩
    · rw [List.head_append_of_ne_nil hmajor.1]
      exact hmajor.2 _ (List.head_mem _)
    · rw [List.getLast_append_of_ne_nil _ (List.cons_ne_nil _ _), List.getLast_cons hminor.1]
      exact hminor.2 _ (List.getLast_mem _)

/-- What the parser does with the text that was trimmed. -/
def parseTrimmed (text : List UInt8) : Option UbxProtVersion :=
  if text = [] then none
  else
    match text.findIdx? (· = 0x2e) with
    | none =>
      match fromChars text with
      | some (major, []) => some ⟨major, 0⟩
      | _ => none
    | some dotPos =>
      let majorPart := text.take dotPos
      let minorPart := text.drop (dotPos + 1)
      if majorPart = [] ∨ minorPart = [] then none
      else
        match fromChars majorPart, fromChars minorPart with
        | some (major, []), some (minor, []) => some ⟨major, minor⟩
        | _, _ => none

theorem getProtVersion_eq (text : List UInt8) :
    getProtVersion text = parseTrimmed (trim isSpace text) := rfl

theorem parseTrimmed_iff {core : List UInt8} {v : UbxProtVersion} :
    parseTrimmed core = some v ↔ Denotes core v := by
  constructor
  · intro h
    obtain ⟨hne, h⟩ := Option.ite_none_left_eq_some.mp h
    cases hdot : core.findIdx? (· = 0x2e) with
    | none =>
      simp only [hdot] at h
      split at h
      · next major hmajor =>
        obtain rfl := Option.some.inj h
        obtain ⟨hdigits, hdecimal⟩ := fromChars_whole.mp hmajor
        exact .major hdigits hdecimal rfl
      · cases h
    | some dotPos =>
      simp only [hdot] at h
      obtain ⟨hsplit, -⟩ := findIdx?_split hdot
      obtain ⟨-, h⟩ := Option.ite_none_left_eq_some.mp h
      split at h
      · next major minor hmajor hminor =>
        obtain rfl := Option.some.inj h
        obtain ⟨hdigits, hdecimal⟩ := fromChars_whole.mp hmajor
        obtain ⟨hdigits', hdecimal'⟩ := fromChars_whole.mp hminor
        rw [hsplit]
        exact .both hdigits hdigits' hdecimal hdecimal'
      · cases h
  · intro h
    cases h with
    | major hmajor major minor =>
      have hread := fromChars_whole.mpr ⟨hmajor, major⟩
      rw [parseTrimmed, if_neg hmajor.1, findIdx?_absent.mpr hmajor.no_dot]
      simp only [hread]
      rw [← minor]
    | @both digits digits' _ hmajor hminor major minor =>
      have hread := fromChars_whole.mpr ⟨hmajor, major⟩
      have hread' := fromChars_whole.mpr ⟨hminor, minor⟩
      have hmajorPart : (digits ++ 0x2e :: digits').take digits.length = digits :=
        List.take_left
      have hminorPart : (digits ++ 0x2e :: digits').drop (digits.length + 1) = digits' := by
        rw [List.drop_append, List.drop_eq_nil_of_le (by omega)]
        simp
      rw [parseTrimmed, if_neg (by simp), findIdx?_separator hmajor.no_dot]
      simp only [hmajorPart, hminorPart, hmajor.1, hminor.1, or_self, if_false, hread, hread']

/-- **A text is a version exactly when it is one in the middle of white space**, and nothing
else is accepted. -/
theorem getProtVersion_eq_some_iff (text : List UInt8) (v : UbxProtVersion) :
    getProtVersion text = some v ↔
      ∃ lead core trail, text = lead ++ core ++ trail ∧ (∀ ch ∈ lead, isSpace ch = true) ∧
        (∀ ch ∈ trail, isSpace ch = true) ∧ Denotes core v := by
  rw [getProtVersion_eq, parseTrimmed_iff]
  constructor
  · intro h
    obtain ⟨lead, trail, hsplit, hlead, htrail⟩ := trim_split isSpace text
    exact ⟨lead, trim isSpace text, trail, hsplit, hlead, htrail, h⟩
  · rintro ⟨lead, core, trail, rfl, hlead, htrail, h⟩
    obtain ⟨hne, hfirst, hlast⟩ := h.ends
    rw [trim_surrounded hlead htrail hne (by simp [isDigit_not_space hfirst])
      (by simp [isDigit_not_space hlast])]
    exact h

end MuonDetector.Ublox.VersionText
