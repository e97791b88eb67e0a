import MuonDetector.Library.Regex
import MuonDetector.Library.Texts

/-!
# The credentials in the config file

The login tool drops the lines of earlier credentials from the config file and writes the
new ones behind it, escaped and in quotation marks. It reads them back with a regular
expression whose group allows an escape as well as its two characters one by one; the
first of these is tried first, so that the group ends at the quotation mark that was
written behind the text. Whether the lines could be written is not looked at: a device that
gets full cuts the text off, and the file is replaced by what there is of it.
-/

namespace MuonDetector.Credentials.ConfigFile

open MuonDetector.Library MuonDetector.Library.Regex
open MuonDetector.Library.Texts (linesText linesText_cons)

abbrev Text := List Char

/-- `" \t"`, the characters that `trimLeft` passes. -/
def isBlankOrTab (c : Char) : Bool := c = ' ' || c = '\t'

def trimLeft (value : Text) : Text := value.dropWhile isBlankOrTab

/-! ## Escapes -/

def escapeOf : Char → Text
  | '\\' => ['\\', '\\']
  | '"' => ['\\', '"']
  | '\n' => ['\\', 'n']
  | '\r' => ['\\', 'r']
  | '\t' => ['\\', 't']
  | ch => [ch]

def configEscape (value : Text) : Text := value.flatMap escapeOf

/-- The character that is meant behind a backslash. -/
def escapedChar : Char → Char
  | 'n' => '\n'
  | 'r' => '\r'
  | 't' => '\t'
  | ch => ch

/-- The text so far, and whether a backslash came before. -/
def unescapeStep (state : Text × Bool) (ch : Char) : Text × Bool :=
  if state.2 then (state.1 ++ [escapedChar ch], false)
  else if ch = '\\' then (state.1, true)
  else (state.1 ++ [ch], false)

def configUnescape (value : Text) : Text := (value.foldl unescapeStep ([], false)).1

/-! ## The lines -/

def comment : Text := "# MQTT credentials written by muondetector-login.".toList

def mqttUser : Text := ['m', 'q', 't', 't', '_', 'u', 's', 'e', 'r']

def mqttPassword : Text := ['m', 'q', 't', 't', '_', 'p', 'a', 's', 's', 'w', 'o', 'r', 'd']

def isCredentialAssignment (line : Text) : Bool :=
  let trimmed := trimLeft line
  mqttUser.isPrefixOf trimmed || mqttPassword.isPrefixOf trimmed || trimmed = comment

/-- `\s` -/
def space : Pattern Char := .one Texts.isBlank

/-- The dot of a regular expression. -/
def dot : Pattern Char := .one fun c => c ≠ '\n' && c ≠ '\r'

def literal (c : Char) : Pattern Char := .one fun x => x = c

/-- `(?:\\.|[^"])*` -/
def quotedChars : Pattern Char :=
  .star (.alt (.seq (literal '\\') dot) (.one fun c => c ≠ '"'))

/-- `\s*;?\s*(?:#.*)?` -/
def lineEnd : Pattern Char :=
  .seq (.star space) (.seq (.optional (literal ';')) (.seq (.star space)
    (.optional (.seq (literal '#') (.star dot)))))

/-- The regular expression for a key without special characters. -/
def assignment (key : Text) : Pattern Char :=
  .seq (.star space) (.seq (.word key) (.seq (.star space) (.seq (literal '=')
    (.seq (.star space) (.seq (literal '"') (.seq (.group quotedChars)
      (.seq (literal '"') lineEnd)))))))

/-- The value of the first line that matches, and otherwise the empty text. -/
def parseConfigString (lines : List Text) (key : Text) : Text :=
  (lines.findSome? fun line =>
    (fullMatch (assignment key) line).map fun group => configUnescape (group.getD [])).getD []

/-! ## The file -/

/-- What `std::getline` gives one after the other, in at most `n` calls. -/
def readLines : Nat → Text → List Text
  | 0, _ => []
  | n + 1, text =>
    match Texts.getline text with
    | none => []
    | some (line, rest) => line :: readLines n rest

def configLines (text : Text) : List Text := readLines text.length text

/-- If the temporary file can be opened and can replace the config file, and how many
characters the device has room for where it gets full. -/
structure World where
  opensTemporary : Bool := true
  renames : Bool := true
  room : Option Nat := none
  deriving DecidableEq, Repr

/-- How much of a text is written. -/
def World.written (w : World) (text : Text) : Nat := w.room.getD text.length

/-- With the text of the file afterwards. A write that fails makes no difference to the
result: the stream is not looked at again. -/
def writeConfigLines (w : World) (text : Text) (lines : List Text) : Bool × Text :=
  if w.opensTemporary && w.renames then
    (true, (linesText lines).take (w.written (linesText lines)))
  else (false, text)

def keptLines (text : Text) : List Text :=
  (configLines text).filter fun line => !isCredentialAssignment line

def assignmentLine (key value : Text) : Text :=
  key ++ [' ', '=', ' ', '"'] ++ configEscape value ++ ['"']

def addedLines (username password : Text) : List Text :=
  [[], comment, assignmentLine mqttUser username, assignmentLine mqttPassword password]

/-- The file, or `none` where it cannot be opened. -/
def storeCredentialsInConfig (w : World) (file : Option Text) (username password : Text) :
    Bool × Option Text :=
  match file with
  | none => (false, none)
  | some text =>
    let (ok, text) := writeConfigLines w text (keptLines text ++ addedLines username password)
    (ok, some text)

def clearCredentialsFromConfig (w : World) (file : Option Text) : Bool × Option Text :=
  match file with
  | none => (false, none)
  | some text =>
    let (ok, text) := writeConfigLines w text (keptLines text)
    (ok, some text)

/-- The lines of the file that is there. -/
def readConfigLines (file : Option Text) : List Text := file.elim [] configLines

/-! ## What is escaped comes back -/

/-- An escape is one character, or a backslash and a character that stands for another. -/
theorem escapeOf_cases (c : Char) :
    (escapeOf c = [c] ∧ c ≠ '\\' ∧ c ≠ '"' ∧ c ≠ '\n') ∨
      ∃ d, escapeOf c = ['\\', d] ∧ escapedChar d = c ∧ d ≠ '\n' ∧ d ≠ '\r' := by
  unfold escapeOf
  split
  · exact .inr ⟨'\\', rfl, rfl, by decide, by decide⟩
  · exact .inr ⟨'"', rfl, rfl, by decide, by decide⟩
  · exact .inr ⟨'n', rfl, rfl, by decide, by decide⟩
  · exact .inr ⟨'r', rfl, rfl, by decide, by decide⟩
  · exact .inr ⟨'t', rfl, rfl, by decide, by decide⟩
  · next hbackslash hquote hnewline _ _ => exact .inl ⟨rfl, hbackslash, hquote, hnewline⟩

theorem foldl_escapeOf (text : Text) (c : Char) :
    (escapeOf c).foldl unescapeStep (text, false) = (text ++ [c], false) := by
  rcases escapeOf_cases c with ⟨heq, hbackslash, -, -⟩ | ⟨d, heq, hd, -, -⟩
  · rw [heq]
    simp [unescapeStep, hbackslash]
  · rw [heq]
    simp [unescapeStep, hd]

theorem foldl_configEscape (text value : Text) :
    (configEscape value).foldl unescapeStep (text, false) = (text ++ value, false) := by
  induction value generalizing text with
  | nil => simp [configEscape]
  | cons c value ih =>
    rw [configEscape, List.flatMap_cons, List.foldl_append, foldl_escapeOf]
    simpa [configEscape] using ih (text ++ [c])

theorem configUnescape_configEscape (value : Text) :
    configUnescape (configEscape value) = value := by
  rw [configUnescape, foldl_configEscape]
  rfl

theorem newline_notMem_configEscape (value : Text) : '\n' ∉ configEscape value := by
  intro hmem
  obtain ⟨c, -, hc⟩ := List.mem_flatMap.mp hmem
  rcases escapeOf_cases c with ⟨heq, -, -, hnewline⟩ | ⟨d, heq, -, hnewline, -⟩
  · rw [heq, List.mem_singleton] at hc
    exact hnewline hc.symm
  · rw [heq] at hc
    simp [hnewline.symm] at hc

/-! ## The written line -/

/-- The group takes the escapes as such, up to the quotation mark behind the text. -/
theorem first_quotedChars (value rest : Text) :
    First quotedChars (configEscape value ++ '"' :: rest) { rest := '"' :: rest } := by
  have hstop : ∀ c : Char, c ≠ '\\' → ∀ s, results (.seq (literal '\\') dot) (c :: s) = [] := by
    intro c hc s
    apply results_seq_of_nil
    apply results_one_of_not
    rintro _ ⟨⟩
    simpa using hc
  induction value with
  | nil =>
    apply first_star_stop
    rw [results, List.append_eq_nil_iff]
    exact ⟨hstop '"' (by decide) rest, results_one_of_not (by rintro _ ⟨⟩; rfl)⟩
  | cons c value ih =>
    rw [configEscape, List.flatMap_cons, List.append_assoc]
    rcases escapeOf_cases c with ⟨heq, hbackslash, hquote, -⟩ | ⟨d, heq, -, hnewline, hreturn⟩
    · rw [heq]
      refine first_star_more (first_alt_right (hstop c hbackslash _) (first_one ?_ _))
        (Nat.lt_succ_self _) ih
      simpa using hquote
    · rw [heq]
      refine first_star_more
        (first_alt_left (first_seq (first_one (by simp) _) (first_one ?_ _))) ?_ ih
      · simp [hnewline, hreturn]
      · simp only [Found.andThen, List.length_append, List.length_cons]
        omega

theorem first_lineEnd : First lineEnd [] { rest := [] } := rfl

/-- A key as the tool has them. -/
def IsKey (key : Text) : Prop := key = mqttUser ∨ key = mqttPassword

theorem IsKey.head_not_blank {key : Text} (h : IsKey key) (rest : Text) :
    ∀ c ∈ (key ++ rest).head?, Texts.isBlank c = false := by
  rcases h with rfl | rfl <;> rintro _ ⟨⟩ <;> decide

theorem fullMatch_assignmentLine {key : Text} (h : IsKey key) (value : Text) :
    fullMatch (assignment key) (assignmentLine key value) = some (some (configEscape value)) := by
  have hline : assignmentLine key value =
      [] ++ (key ++ ([' '] ++ ('=' :: ([' '] ++ ('"' :: (configEscape value ++ ['"'])))))) := by
    simp [assignmentLine]
  have hone : ∀ (c : Char) (s : Text), First (literal c) (c :: s) { rest := s } := fun c s =>
    first_one (by simp) s
  have hblank : ∀ s : Text, (∀ c ∈ s.head?, Texts.isBlank c = false) →
      First (.star space) ([' '] ++ s) { rest := s } := fun s hs =>
    first_star_one (by simp [Texts.isBlank]) hs
  apply fullMatch_of_first
  rw [hline]
  exact first_seq (first_star_one (by simp) (h.head_not_blank _)) (first_seq (first_word key _)
    (first_seq (hblank _ (by rintro _ ⟨⟩; decide)) (first_seq (hone '=' _)
      (first_seq (hblank _ (by rintro _ ⟨⟩; decide)) (first_seq (hone '"' _)
        (first_seq (first_group (first_quotedChars value [])) (first_seq (hone '"' _)
          first_lineEnd)))))))

/-! ## Lines of other kinds -/

/-- The line starts with no white space other than blanks and tabs. -/
def LeadingBlanks (line : Text) : Prop :=
  (line.takeWhile Texts.isBlank).all isBlankOrTab = true

instance (line : Text) : Decidable (LeadingBlanks line) := inferInstanceAs (Decidable (_ = true))

theorem split_of_match {key line : Text} {c : Option Text}
    (h : fullMatch (assignment key) line = some c) :
    ∃ lead rest, line = lead ++ (key ++ rest) ∧ ∀ x ∈ lead, Texts.isBlank x = true := by
  obtain ⟨lead, hlead, tail, htail, rfl⟩ := Language.mem_mul.mp (mem_language_of_fullMatch h)
  obtain ⟨word, hword, rest, -, rfl⟩ := Language.mem_mul.mp htail
  rw [mem_language_word.mp hword]
  exact ⟨lead, rest, rfl, all_of_mem_star_one hlead⟩

theorem takeWhile_lead {p : Char → Bool} {lead rest : Text} (hlead : ∀ x ∈ lead, p x = true)
    (hrest : ∀ c ∈ rest.head?, p c = false) : (lead ++ rest).takeWhile p = lead := by
  rw [List.takeWhile_append_of_pos hlead]
  cases rest with
  | nil => exact List.append_nil lead
  | cons c rest =>
    rw [List.takeWhile_cons_of_neg (by simpa using hrest c rfl)]
    exact List.append_nil lead

theorem dropWhile_lead {p : Char → Bool} {lead rest : Text} (hlead : ∀ x ∈ lead, p x = true)
    (hrest : ∀ c ∈ rest.head?, p c = false) : (lead ++ rest).dropWhile p = rest := by
  rw [List.dropWhile_append_of_pos hlead]
  cases rest with
  | nil => rfl
  | cons c rest => exact List.dropWhile_cons_of_neg (by simpa using hrest c rfl)

theorem isBlankOrTab_of_not_blank {c : Char} (h : Texts.isBlank c = false) :
    isBlankOrTab c = false := by
  cases hc : isBlankOrTab c with
  | false => rfl
  | true =>
    simp only [isBlankOrTab, Bool.or_eq_true, decide_eq_true_eq] at hc
    rcases hc with rfl | rfl <;> exact absurd h (by decide)

/-- Where the key is behind white space, `trimLeft` leads to it. -/
theorem isPrefixOf_of_lead {key lead rest : Text} (hkey : IsKey key)
    (hline : LeadingBlanks (lead ++ (key ++ rest))) (hlead : ∀ x ∈ lead, Texts.isBlank x = true) :
    key.isPrefixOf (trimLeft (lead ++ (key ++ rest))) = true := by
  have hhead := hkey.head_not_blank rest
  rw [LeadingBlanks, takeWhile_lead hlead hhead, List.all_eq_true] at hline
  rw [trimLeft, dropWhile_lead hline fun x hx => isBlankOrTab_of_not_blank (hhead x hx)]
  exact List.isPrefixOf_iff_prefix.mpr (List.prefix_append key rest)

/-- No front of the line is an assignment to the key. -/
def NeverMatches (key line : Text) : Prop :=
  ∀ front, front <+: line → fullMatch (assignment key) front = none

theorem neverMatches_of_not_prefix {key line : Text} (hkey : IsKey key)
    (hline : LeadingBlanks line) (h : key.isPrefixOf (trimLeft line) = false) :
    NeverMatches key line := by
  rintro front ⟨more, rfl⟩
  cases hmatch : fullMatch (assignment key) front with
  | none => rfl
  | some c =>
    obtain ⟨lead, rest, rfl, hlead⟩ := split_of_match hmatch
    rw [List.append_assoc, List.append_assoc] at hline h
    rw [isPrefixOf_of_lead hkey hline hlead] at h
    cases h

theorem neverMatches_of_kept {key line : Text} (hkey : IsKey key) (hline : LeadingBlanks line)
    (hkept : isCredentialAssignment line = false) : NeverMatches key line := by
  apply neverMatches_of_not_prefix hkey hline
  simp only [isCredentialAssignment, Bool.or_eq_false_iff] at hkept
  rcases hkey with rfl | rfl
  · exact hkept.1.1
  · exact hkept.1.2

/-! ## Fronts of a written line -/

/-- What is unescaped of a front is shorter than the text. -/
theorem foldl_front {value front : Text} (h : front <+: configEscape value)
    (hne : front ≠ configEscape value) (text : Text) :
    (front.foldl unescapeStep (text, false)).1.length < text.length + value.length := by
  induction value generalizing front text with
  | nil => exact absurd (List.prefix_nil.mp h) hne
  | cons c value ih =>
    have hcons : configEscape (c :: value) = escapeOf c ++ configEscape value := rfl
    rw [hcons] at h hne
    have hrest : ∀ rest, front = escapeOf c ++ rest →
        (front.foldl unescapeStep (text, false)).1.length < text.length + (c :: value).length := by
      rintro rest rfl
      rw [List.foldl_append, foldl_escapeOf]
      have hlt := ih ((List.prefix_append_right_inj _).mp h)
        (fun heq => hne (congrArg (escapeOf c ++ ·) heq)) (text ++ [c])
      rw [List.length_append, List.length_singleton] at hlt
      rw [List.length_cons]
      omega
    rcases escapeOf_cases c with ⟨heq, -, -, -⟩ | ⟨d, heq, -, -, -⟩
    · rw [heq] at h hrest
      cases front with
      | nil => simp
      | cons x front =>
        obtain ⟨rfl, -⟩ := List.cons_prefix_cons.mp h
        exact hrest front rfl
    · rw [heq] at h hrest
      cases front with
      | nil => simp
      | cons x front =>
        obtain ⟨rfl, hmore⟩ := List.cons_prefix_cons.mp h
        cases front with
        | nil => simp [unescapeStep]
        | cons y front =>
          obtain ⟨rfl, -⟩ := List.cons_prefix_cons.mp hmore
          exact hrest front rfl

theorem configUnescape_front_ne {value front : Text} (h : front <+: configEscape value)
    (hne : front ≠ configEscape value) : configUnescape front ≠ value := by
  intro heq
  have hlt := foldl_front h hne []
  rw [← configUnescape, heq] at hlt
  simp at hlt

/-- White space in front of something else is the same where the texts are. -/
theorem blanks_cancel {lead lead' rest rest' : Text} (hlead : ∀ x ∈ lead, Texts.isBlank x = true)
    (hlead' : ∀ x ∈ lead', Texts.isBlank x = true)
    (hrest : ∀ c ∈ rest.head?, Texts.isBlank c = false)
    (hrest' : ∀ c ∈ rest'.head?, Texts.isBlank c = false)
    (h : lead ++ rest = lead' ++ rest') : rest = rest' := by
  rw [← dropWhile_lead hlead hrest, h, dropWhile_lead hlead' hrest']

/-- The group of a match, between its quotation marks. -/
theorem group_of_match {key line : Text} {c : Option Text}
    (h : fullMatch (assignment key) line = some c) :
    ∃ lead gap gap' group rest, line = lead ++ (key ++ (gap ++ '=' :: (gap' ++ '"' :: (group ++
        '"' :: rest)))) ∧ (∀ x ∈ lead ++ gap ++ gap', Texts.isBlank x = true) ∧
      c = some group := by
  obtain ⟨f, hfind, rfl⟩ := Option.map_eq_some_iff.mp h
  have hf := List.mem_of_find?_eq_some hfind
  rw [assignment] at hf
  obtain ⟨lead, hlead, t₁, rfl, hf₁⟩ := results_seq_plain rfl hf
  obtain ⟨word, hword, t₂, rfl, hf₂⟩ := results_seq_plain (isPlain_word key) hf₁
  obtain ⟨gap, hgap, t₃, rfl, hf₃⟩ := results_seq_plain rfl hf₂
  obtain ⟨_, ⟨x, hx, rfl⟩, t₄, rfl, hf₄⟩ := results_seq_plain rfl hf₃
  obtain ⟨gap', hgap', t₅, rfl, hf₅⟩ := results_seq_plain rfl hf₄
  obtain ⟨_, ⟨y, hy, rfl⟩, t₆, rfl, hf₆⟩ := results_seq_plain rfl hf₅
  obtain ⟨group, -, _, hend, rfl, hcapture⟩ := results_seq_group rfl hf₆
  obtain ⟨_, ⟨z, hz, rfl⟩, rest, -, rfl⟩ := Language.mem_mul.mp hend
  obtain rfl : x = '=' := of_decide_eq_true hx
  obtain rfl : y = '"' := of_decide_eq_true hy
  obtain rfl : z = '"' := of_decide_eq_true hz
  obtain rfl : word = key := mem_language_word.mp hword
  refine ⟨lead, gap, gap', group, rest ++ f.rest, by simp, fun x hx => ?_, hcapture⟩
  simp only [List.mem_append] at hx
  rcases hx with (hx | hx) | hx
  · exact all_of_mem_star_one hlead x hx
  · exact all_of_mem_star_one hgap x hx
  · exact all_of_mem_star_one hgap' x hx

/-- A line that is cut off can match still: at a quotation mark that was escaped. -/
theorem group_of_front {key value front : Text} (hkey : IsKey key) {c : Option Text}
    (hfront : front <+: assignmentLine key value) (hne : front ≠ assignmentLine key value)
    (h : fullMatch (assignment key) front = some c) :
    ∃ group, c = some group ∧ group ++ ['"'] <+: configEscape value := by
  obtain ⟨more, hmore⟩ := hfront
  obtain ⟨lead, gap, gap', group, rest, rfl, hblank, rfl⟩ := group_of_match h
  refine ⟨group, rfl, ?_⟩
  simp only [List.mem_append] at hblank
  have hline : lead ++ (key ++ (gap ++ '=' :: (gap' ++ '"' :: (group ++ '"' :: (rest ++ more))))) =
      [] ++ (key ++ ([' '] ++ '=' :: ([' '] ++ '"' :: (configEscape value ++ ['"'])))) := by
    simpa [assignmentLine] using hmore
  have hkeys := List.append_cancel_left (blanks_cancel (fun x hx => hblank x (.inl (.inl hx)))
    (by simp) (hkey.head_not_blank _) (hkey.head_not_blank _) hline)
  have hsigns := List.cons_injective (blanks_cancel (fun x hx => hblank x (.inl (.inr hx)))
    (by simp [Texts.isBlank]) (by rintro _ ⟨⟩; decide) (by rintro _ ⟨⟩; decide) hkeys)
  have hgroup : group ++ '"' :: (rest ++ more) = configEscape value ++ ['"'] :=
    List.cons_injective (blanks_cancel (fun x hx => hblank x (.inr hx)) (by simp [Texts.isBlank])
      (by rintro _ ⟨⟩; decide) (by rintro _ ⟨⟩; decide) hsigns)
  -- something was cut off, so that the mark of the match is not the one behind the text
  have hcut : rest ++ more ≠ [] := by
    intro hnil
    obtain ⟨-, rfl⟩ := List.append_eq_nil_iff.mp hnil
    exact hne (by rwa [List.append_nil] at hmore)
  have hlast := congrArg List.dropLast hgroup
  rw [List.dropLast_concat, List.dropLast_append_of_ne_nil (List.cons_ne_nil _ _),
    List.dropLast_cons_of_ne_nil hcut] at hlast
  exact ⟨(rest ++ more).dropLast, by rw [← hlast]; simp⟩

/-! ## Reading and writing -/

theorem getline_eq_some {text line rest : Text} (h : Texts.getline text = some (line, rest)) :
    '\n' ∉ line ∧ rest.length < text.length := by
  obtain ⟨hne, heq⟩ := Option.ite_none_left_eq_some.mp h
  obtain ⟨rfl, rfl⟩ := Prod.mk.inj (Option.some.inj heq)
  constructor
  · intro hmem
    have hall := List.mem_takeWhile_imp hmem
    simp at hall
  · have hle := (List.dropWhile_suffix (fun c => decide (c ≠ '\n')) (l := text)).length_le
    have hpos := List.length_pos_of_ne_nil hne
    rw [List.length_tail]
    omega

theorem newline_notMem_readLines (n : Nat) (text : Text) :
    ∀ line ∈ readLines n text, '\n' ∉ line := by
  induction n generalizing text with
  | zero => simp [readLines]
  | succ n ih =>
    intro line hline
    rw [readLines] at hline
    split at hline
    · cases hline
    · next first rest hget =>
      rcases List.mem_cons.mp hline with rfl | hline
      · exact (getline_eq_some hget).1
      · exact ih rest line hline

/-- The lines of a text that is cut off behind `n` characters. -/
def cutLines : Nat → List Text → List Text
  | _, [] => []
  | n, line :: lines =>
    if line.length < n then line :: cutLines (n - line.length - 1) lines
    else if line.take n = [] then [] else [line.take n]

theorem getline_last {line : Text} (hne : line ≠ []) (h : '\n' ∉ line) :
    Texts.getline line = some (line, []) := by
  have hall : ∀ c ∈ line, decide (c ≠ '\n') = true := fun c hc =>
    decide_eq_true fun hnewline => h (hnewline ▸ hc)
  rw [Texts.getline, if_neg hne, List.takeWhile_eq_self_iff.mpr hall,
    List.dropWhile_eq_nil_iff.mpr hall]
  rfl

theorem readLines_nil (n : Nat) : readLines n [] = [] := by cases n <;> rfl

theorem readLines_take {lines : List Text} (h : ∀ line ∈ lines, '\n' ∉ line) {n m : Nat}
    (hm : ((linesText lines).take n).length ≤ m) :
    readLines m ((linesText lines).take n) = cutLines n lines := by
  induction lines generalizing n m with
  | nil => rw [linesText, List.flatMap_nil, List.take_nil, readLines_nil, cutLines]
  | cons line lines ih =>
    have hline : '\n' ∉ line := h line List.mem_cons_self
    rw [linesText_cons] at hm ⊢
    rw [cutLines]
    by_cases hn : line.length < n
    · have htake : (line ++ '\n' :: linesText lines).take n =
          line ++ '\n' :: (linesText lines).take (n - line.length - 1) := by
        obtain ⟨k, rfl⟩ := Nat.exists_eq_add_of_lt hn
        have hk : line.length + k + 1 - line.length = k + 1 := by omega
        rw [List.take_append, List.take_of_length_le (by omega), hk, List.take_succ_cons]
        rfl
      rw [htake, List.length_append, List.length_cons] at hm
      obtain ⟨m, rfl⟩ : ∃ m', m = m' + 1 := ⟨m - 1, by omega⟩
      rw [htake, if_pos hn, readLines, Texts.getline_line hline]
      exact congrArg (line :: ·) (ih (fun l hl => h l (List.mem_cons_of_mem _ hl)) (by omega))
    · have htake : (line ++ '\n' :: linesText lines).take n = line.take n :=
        List.take_append_of_le_length (by omega)
      rw [htake] at hm ⊢
      rw [if_neg hn]
      split
      · next hnil => rw [hnil, readLines_nil]
      · next hne =>
        have hpos := List.length_pos_of_ne_nil hne
        obtain ⟨m, rfl⟩ : ∃ m', m = m' + 1 := ⟨m - 1, by omega⟩
        rw [readLines, getline_last hne fun hmem => hline (List.mem_of_mem_take hmem)]
        exact congrArg (line.take n :: ·) (readLines_nil m)

/-- Lines that are written come back, up to where the text is cut off. -/
theorem configLines_take {lines : List Text} (h : ∀ line ∈ lines, '\n' ∉ line) (n : Nat) :
    configLines ((linesText lines).take n) = cutLines n lines :=
  readLines_take h (Nat.le_refl _)

theorem newline_notMem_kept (text : Text) : ∀ line ∈ keptLines text, '\n' ∉ line := by
  intro line hline
  exact newline_notMem_readLines _ _ line (List.mem_filter.mp hline).1

theorem newline_notMem_assignmentLine {key : Text} (hkey : IsKey key) (value : Text) :
    '\n' ∉ assignmentLine key value := by
  have hnone : '\n' ∉ key := by rcases hkey with rfl | rfl <;> decide
  simp [assignmentLine, hnone, newline_notMem_configEscape]

theorem newline_notMem_added (username password : Text) :
    ∀ line ∈ addedLines username password, '\n' ∉ line := by
  intro line hline
  simp only [addedLines, List.mem_cons, List.not_mem_nil, or_false] at hline
  rcases hline with rfl | rfl | rfl | rfl
  · exact List.not_mem_nil
  · decide +kernel
  · exact newline_notMem_assignmentLine (.inl rfl) username
  · exact newline_notMem_assignmentLine (.inr rfl) password

theorem cutLines_all {lines : List Text} {n : Nat} (hn : (linesText lines).length ≤ n) :
    cutLines n lines = lines := by
  induction lines generalizing n with
  | nil => rfl
  | cons line lines ih =>
    rw [linesText_cons, List.length_append, List.length_cons] at hn
    rw [cutLines, if_pos (by omega), ih (by omega)]

theorem cutLines_zero (lines : List Text) : cutLines 0 lines = [] := by
  cases lines <;> rfl

/-- What is read after the credentials have been stored. -/
theorem readConfigLines_stored {w : World} {file : Option Text} {username password : Text}
    (h : (storeCredentialsInConfig w file username password).1 = true) :
    ∃ text, file = some text ∧
      readConfigLines (storeCredentialsInConfig w file username password).2 =
        cutLines (w.written (linesText (keptLines text ++ addedLines username password)))
          (keptLines text ++ addedLines username password) := by
  cases file with
  | none => cases h
  | some text =>
    refine ⟨text, rfl, ?_⟩
    simp only [storeCredentialsInConfig, writeConfigLines] at h ⊢
    split
    · apply configLines_take
      intro line hline
      rcases List.mem_append.mp hline with hline | hline
      · exact newline_notMem_kept text line hline
      · exact newline_notMem_added username password line hline
    · next hfails =>
      rw [if_neg hfails] at h
      cases h

theorem readConfigLines_cleared {w : World} {file : Option Text}
    (h : (clearCredentialsFromConfig w file).1 = true) :
    ∃ text, file = some text ∧
      readConfigLines (clearCredentialsFromConfig w file).2 =
        cutLines (w.written (linesText (keptLines text))) (keptLines text) := by
  cases file with
  | none => cases h
  | some text =>
    refine ⟨text, rfl, ?_⟩
    simp only [clearCredentialsFromConfig, writeConfigLines] at h ⊢
    split
    · exact configLines_take (newline_notMem_kept text) _
    · next hfails =>
      rw [if_neg hfails] at h
      cases h

/-! ## The round trip -/

theorem parse_cons_none {line key : Text} (h : fullMatch (assignment key) line = none)
    (lines : List Text) : parseConfigString (line :: lines) key = parseConfigString lines key := by
  rw [parseConfigString, List.findSome?_cons, h]
  rfl

theorem parse_cons_some {line key value : Text}
    (h : fullMatch (assignment key) line = some (some (configEscape value))) (lines : List Text) :
    parseConfigString (line :: lines) key = value := by
  rw [parseConfigString, List.findSome?_cons, h]
  exact configUnescape_configEscape value

/-- Lines that do not match are passed over, also where the text is cut off in them. -/
theorem parse_cut_append {key : Text} {lines : List Text}
    (h : ∀ line ∈ lines, NeverMatches key line) (others : List Text) (n : Nat) :
    parseConfigString (cutLines n (lines ++ others)) key =
      parseConfigString (cutLines (n - (linesText lines).length) others) key := by
  induction lines generalizing n with
  | nil => rfl
  | cons line lines ih =>
    have hline := h line List.mem_cons_self
    rw [linesText_cons, List.length_append, List.length_cons, List.cons_append, cutLines]
    by_cases hn : line.length < n
    · rw [if_pos hn, parse_cons_none (hline line List.prefix_rfl),
        ih fun l hl => h l (List.mem_cons_of_mem _ hl)]
      congr 2
      omega
    · have hzero : n - (line.length + ((linesText lines).length + 1)) = 0 := by omega
      rw [if_neg hn, hzero, cutLines_zero]
      split
      · rfl
      · rw [parse_cons_none (hline _ (List.take_prefix _ _))]

/-- A line that is cut off gives nothing, or something shorter. -/
theorem parse_front_iff {key value front : Text} (hkey : IsKey key)
    (hfront : front <+: assignmentLine key value) (hne : front ≠ assignmentLine key value) :
    parseConfigString [front] key = value ↔ value = [] := by
  cases hmatch : fullMatch (assignment key) front with
  | none =>
    rw [parse_cons_none hmatch]
    exact eq_comm
  | some c =>
    obtain ⟨group, rfl, hgroup⟩ := group_of_front hkey hfront hne hmatch
    have hparse : parseConfigString [front] key = configUnescape group := by
      rw [parseConfigString, List.findSome?_cons, hmatch]
      rfl
    have hshorter : configUnescape group ≠ value := by
      refine configUnescape_front_ne ((List.prefix_append _ _).trans hgroup) fun heq => ?_
      have hlength := hgroup.length_le
      rw [heq, List.length_append, List.length_singleton] at hlength
      omega
    rw [hparse]
    refine iff_of_false hshorter ?_
    rintro rfl
    exact absurd (List.prefix_nil.mp hgroup) (by simp)

/-- A credential is read back exactly where its line reaches the quotation mark behind it, or
where it is empty. -/
theorem parse_cut_iff {key value : Text} (hkey : IsKey key) {lines : List Text}
    (hlines : ∀ line ∈ lines, NeverMatches key line) (others : List Text) (n : Nat) :
    parseConfigString (cutLines n (lines ++ assignmentLine key value :: others)) key = value ↔
      value = [] ∨ (linesText lines).length + (assignmentLine key value).length ≤ n := by
  rw [parse_cut_append hlines, cutLines]
  have hpos : 0 < (assignmentLine key value).length := by simp [assignmentLine]
  by_cases hlt : (assignmentLine key value).length < n - (linesText lines).length
  · rw [if_pos hlt, parse_cons_some (fullMatch_assignmentLine hkey value)]
    exact iff_of_true rfl (.inr (by omega))
  · rw [if_neg hlt]
    by_cases hall : (assignmentLine key value).length = n - (linesText lines).length
    · rw [List.take_of_length_le hall.le, if_neg (List.ne_nil_of_length_pos hpos),
        parse_cons_some (fullMatch_assignmentLine hkey value)]
      exact iff_of_true rfl (.inr (by omega))
    · have hcut : ¬ (linesText lines).length + (assignmentLine key value).length ≤ n := by omega
      rw [or_iff_left hcut]
      split
      · exact eq_comm
      · refine parse_front_iff hkey (List.take_prefix _ _) fun heq => ?_
        have hlength := congrArg List.length heq
        rw [List.length_take] at hlength
        omega

theorem neverMatches_kept {text key : Text} (hkey : IsKey key)
    (hlines : ∀ line ∈ configLines text, LeadingBlanks line) :
    ∀ line ∈ keptLines text, NeverMatches key line := by
  intro line hline
  obtain ⟨hmem, hkept⟩ := List.mem_filter.mp hline
  exact neverMatches_of_kept hkey (hlines line hmem) (by simpa using hkept)

/-- The lines in front of the user name. -/
def linesBefore (text : Text) : List Text := keptLines text ++ [[], comment]

theorem neverMatches_before {text key : Text} (hkey : IsKey key)
    (hlines : ∀ line ∈ configLines text, LeadingBlanks line) :
    ∀ line ∈ linesBefore text, NeverMatches key line := by
  intro line hline
  rcases List.mem_append.mp hline with hline | hline
  · exact neverMatches_kept hkey hlines line hline
  · simp only [List.mem_cons, List.not_mem_nil, or_false] at hline
    rcases hline with rfl | rfl
    · apply neverMatches_of_not_prefix hkey
      · rfl
      · rcases hkey with rfl | rfl <;> rfl
    · apply neverMatches_of_not_prefix hkey
      · decide +kernel
      · rcases hkey with rfl | rfl <;> decide +kernel

theorem neverMatches_password_user (username : Text) :
    NeverMatches mqttPassword (assignmentLine mqttUser username) := by
  apply neverMatches_of_not_prefix (.inr rfl)
  · rfl
  · rfl

/-- What is claimed of a config file and two credentials. -/
structure RoundTrip (w : World) (file : Option Text) (username password : Text) : Prop where
  stored : (storeCredentialsInConfig w file username password).1 = true →
    let lines := readConfigLines (storeCredentialsInConfig w file username password).2
    parseConfigString lines mqttUser = username ∧ parseConfigString lines mqttPassword = password
  cleared : (clearCredentialsFromConfig w file).1 = true →
    let lines := readConfigLines (clearCredentialsFromConfig w file).2
    parseConfigString lines mqttUser = [] ∧ parseConfigString lines mqttPassword = []
  unescaped : ∀ value, configUnescape (configEscape value) = value

/-- The temporary file takes the text up to the quotation mark behind each credential that is
not empty. -/
def Takes (w : World) (text username password : Text) : Prop :=
  ∀ room ∈ w.room,
    (username = [] ∨
      (linesText (linesBefore text)).length + (assignmentLine mqttUser username).length ≤ room) ∧
    (password = [] ∨
      (linesText (linesBefore text ++ [assignmentLine mqttUser username])).length +
        (assignmentLine mqttPassword password).length ≤ room)

theorem stored_iff {w : World} {text username password : Text}
    (hlines : ∀ line ∈ configLines text, LeadingBlanks line) :
    (let all := keptLines text ++ addedLines username password
      let lines := cutLines (w.written (linesText all)) all
      parseConfigString lines mqttUser = username ∧
        parseConfigString lines mqttPassword = password) ↔ Takes w text username password := by
  have huser : keptLines text ++ addedLines username password =
      linesBefore text ++ assignmentLine mqttUser username ::
        [assignmentLine mqttPassword password] := by
    simp [linesBefore, addedLines]
  have hpassword : keptLines text ++ addedLines username password =
      (linesBefore text ++ [assignmentLine mqttUser username]) ++
        assignmentLine mqttPassword password :: [] := by
    simp [linesBefore, addedLines]
  have hboth : ∀ line ∈ linesBefore text ++ [assignmentLine mqttUser username],
      NeverMatches mqttPassword line := by
    intro line hline
    rcases List.mem_append.mp hline with hline | hline
    · exact neverMatches_before (.inr rfl) hlines line hline
    · rw [List.mem_singleton.mp hline]
      exact neverMatches_password_user username
  have hfirst : ∀ n, parseConfigString (cutLines n (keptLines text ++
      addedLines username password)) mqttUser = username ↔ username = [] ∨
        (linesText (linesBefore text)).length + (assignmentLine mqttUser username).length ≤ n := by
    intro n
    rw [huser]
    exact parse_cut_iff (.inl rfl) (neverMatches_before (.inl rfl) hlines) _ n
  have hsecond : ∀ n, parseConfigString (cutLines n (keptLines text ++
      addedLines username password)) mqttPassword = password ↔ password = [] ∨
        (linesText (linesBefore text ++ [assignmentLine mqttUser username])).length +
          (assignmentLine mqttPassword password).length ≤ n := by
    intro n
    rw [hpassword]
    exact parse_cut_iff (.inr rfl) hboth _ n
  have hall : ∀ lines more : List Text,
      (linesText (lines ++ more)).length = (linesText lines).length + (linesText more).length := by
    intro lines more
    rw [linesText, List.flatMap_append, List.length_append]
    rfl
  simp only [hfirst, hsecond, World.written, Takes]
  cases w.room with
  | some room => simp
  | none =>
    refine iff_of_true ⟨.inr ?_, .inr ?_⟩ fun _ h => by cases h
    · rw [huser, Option.getD_none, hall, linesText_cons, List.length_append]
      omega
    · rw [hpassword, Option.getD_none, hall _ [assignmentLine mqttPassword password],
        linesText_cons, List.length_append]
      omega

theorem cleared_empty {w : World} {file : Option Text}
    (hlines : ∀ line ∈ readConfigLines file, LeadingBlanks line)
    (h : (clearCredentialsFromConfig w file).1 = true) {key : Text} (hkey : IsKey key) :
    parseConfigString (readConfigLines (clearCredentialsFromConfig w file).2) key = [] := by
  obtain ⟨text, rfl, hread⟩ := readConfigLines_cleared h
  rw [hread, ← List.append_nil (keptLines text),
    parse_cut_append (neverMatches_kept hkey hlines), cutLines]
  rfl

/-- **What is stored is read back exactly where it was written**, whatever characters the user
name and the password have. The result of the tool does not tell. -/
theorem credentials_round_trip (w : World) (file : Option Text) (username password : Text)
    (hlines : ∀ line ∈ readConfigLines file, LeadingBlanks line) :
    RoundTrip w file username password ↔
      (w.opensTemporary = true → w.renames = true →
        ∀ text ∈ file, Takes w text username password) := by
  have hstored : ((storeCredentialsInConfig w file username password).1 = true →
      let lines := readConfigLines (storeCredentialsInConfig w file username password).2
      parseConfigString lines mqttUser = username ∧
        parseConfigString lines mqttPassword = password) ↔
      (w.opensTemporary = true → w.renames = true →
        ∀ text ∈ file, Takes w text username password) := by
    constructor
    · rintro h hopens hrenames text rfl
      have hok : (storeCredentialsInConfig w (some text) username password).1 = true := by
        simp [storeCredentialsInConfig, writeConfigLines, hopens, hrenames]
      obtain ⟨_, htext, hread⟩ := readConfigLines_stored hok
      obtain rfl := Option.some.inj htext
      have hback := h hok
      simp only [hread] at hback
      exact (stored_iff hlines).mp hback
    · intro h hok
      obtain ⟨text, rfl, hread⟩ := readConfigLines_stored hok
      have hworld : w.opensTemporary = true ∧ w.renames = true := by
        simp only [storeCredentialsInConfig, writeConfigLines] at hok
        split at hok
        · next hboth => simpa using hboth
        · cases hok
      simp only [hread]
      exact (stored_iff hlines).mpr (h hworld.1 hworld.2 text rfl)
  rw [← hstored]
  constructor
  · exact RoundTrip.stored
  · exact fun h => ⟨h, fun hok => ⟨cleared_empty hlines hok (.inl rfl),
      cleared_empty hlines hok (.inr rfl)⟩, configUnescape_configEscape⟩

/-- A password with what ends a quoted text, begins a comment and begins an escape. -/
theorem credentials_round_trip_quoted :
    RoundTrip {} (some " lat = 1\nmqtt_user = \"old\"\n".toList) "muon".toList
      "a\" # \\\n\\".toList :=
  (credentials_round_trip {} _ _ _ (by decide +kernel)).mpr fun _ _ _ _ _ hroom => by cases hroom

/-- The device gets full inside the password, and the tool reports success. -/
theorem credentials_cut_off :
    let w : World := { room := some 100 }
    let file := some "lat = 1\n".toList
    let result := storeCredentialsInConfig w file "muon".toList "secret".toList
    result.1 = true ∧
      parseConfigString (readConfigLines result.2) mqttPassword = [] ∧
      ¬ RoundTrip w file "muon".toList "secret".toList := by
  have hok : (storeCredentialsInConfig { room := some 100 } (some "lat = 1\n".toList)
      "muon".toList "secret".toList).1 = true := by decide +kernel
  have hread : parseConfigString (readConfigLines (storeCredentialsInConfig { room := some 100 }
      (some "lat = 1\n".toList) "muon".toList "secret".toList).2) mqttPassword = [] := by
    decide +kernel
  refine ⟨hok, hread, fun h => ?_⟩
  have hback := (h.stored hok).2
  rw [hread] at hback
  exact absurd hback (by decide)

end MuonDetector.Credentials.ConfigFile
