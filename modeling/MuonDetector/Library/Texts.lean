import Mathlib.Data.List.DropRight
import Mathlib.Data.List.TakeWhile
import Mathlib.Data.Nat.Digits.Defs

/-!
# Texts

Lists of characters of any type: what is left without the characters of a kind at both
ends, and where the first separator stands. Lines and quoted texts.
-/

namespace MuonDetector.Library.Texts

variable {α : Type}

/-! ## Trimming -/

/-- The text without the characters of the kind `p` at its two ends. -/
def trim (p : α → Bool) (text : List α) : List α := (text.dropWhile p).rdropWhile p

theorem rdropWhile_append {p : α → Bool} {text trail : List α} (htrail : ∀ x ∈ trail, p x) :
    (text ++ trail).rdropWhile p = text.rdropWhile p := by
  rw [List.rdropWhile, List.reverse_append, List.dropWhile_append_of_pos, ← List.rdropWhile]
  intro x hx
  exact htrail x (List.mem_reverse.mp hx)

/-- What is surrounded by characters of the kind is left when it has none of them. -/
theorem trim_surrounded {p : α → Bool} {lead core trail : List α} (hlead : ∀ x ∈ lead, p x)
    (htrail : ∀ x ∈ trail, p x) (hne : core ≠ []) (hfirst : ¬ p (core.head hne))
    (hlast : ¬ p (core.getLast hne)) : trim p (lead ++ core ++ trail) = core := by
  have hdrop : (lead ++ core ++ trail).dropWhile p = core ++ trail := by
    obtain ⟨x, rest, rfl⟩ := List.exists_cons_of_ne_nil hne
    rw [List.append_assoc, List.dropWhile_append_of_pos hlead, List.cons_append,
      List.dropWhile_cons_of_neg (by simpa using hfirst)]
  rw [trim, hdrop, rdropWhile_append htrail, List.rdropWhile_eq_self_iff]
  exact fun _ => hlast

theorem trim_split (p : α → Bool) (text : List α) :
    ∃ lead trail, text = lead ++ trim p text ++ trail ∧ (∀ x ∈ lead, p x) ∧
      ∀ x ∈ trail, p x := by
  refine ⟨text.takeWhile p, (text.dropWhile p).rtakeWhile p, ?_, ?_, ?_⟩
  · have hback : (text.dropWhile p).rdropWhile p ++ (text.dropWhile p).rtakeWhile p =
        text.dropWhile p := by
      rw [List.rdropWhile, List.rtakeWhile, ← List.reverse_append, List.takeWhile_append_dropWhile,
        List.reverse_reverse]
    rw [trim, List.append_assoc, hback, List.takeWhile_append_dropWhile]
  · intro x hx
    exact List.mem_takeWhile_imp hx
  · intro x hx
    exact List.mem_rtakeWhile_imp hx

/-! ## The first separator -/

section

variable [DecidableEq α] {c : α}

theorem findIdx?_absent {text : List α} : text.findIdx? (· = c) = none ↔ c ∉ text := by
  rw [List.findIdx?_eq_none_iff]
  constructor
  · intro h hc
    exact absurd rfl (of_decide_eq_false (h c hc))
  · intro h x hx
    apply decide_eq_false
    rintro rfl
    exact h hx

theorem findIdx?_separator {before after : List α} (h : c ∉ before) :
    (before ++ c :: after).findIdx? (· = c) = some before.length := by
  rw [List.findIdx?_append, findIdx?_absent.mpr h, List.findIdx?_cons]
  simp

/-- The first separator splits the text. -/
theorem findIdx?_split {text : List α} {i : Nat} (h : text.findIdx? (· = c) = some i) :
    text = text.take i ++ c :: text.drop (i + 1) ∧ c ∉ text.take i := by
  obtain ⟨hlt, hat, hbefore⟩ := List.findIdx?_eq_some_iff_getElem.mp h
  have hc : text[i] = c := of_decide_eq_true hat
  constructor
  · rw [← hc, List.getElem_cons_drop, List.take_append_drop]
  · intro hmem
    obtain ⟨j, hj, hget⟩ := List.getElem_of_mem hmem
    rw [List.getElem_take] at hget
    rw [List.length_take] at hj
    exact hbefore j (by omega) (decide_eq_true hget)

/-- The parts of a text have no separator, and the text is the parts with one between any
two of them. -/
theorem splitOn_parts (c : α) (text : List α) :
    ∃ part parts, text.splitOn c = part :: parts ∧
      text = part ++ parts.flatMap (fun part => c :: part) ∧ ∀ t ∈ part :: parts, c ∉ t := by
  induction text with
  | nil => exact ⟨[], [], rfl, rfl, by simp⟩
  | cons x text ih =>
    obtain ⟨part, parts, hsplit, htext, hfree⟩ := ih
    rw [List.splitOn_cons_eq_if_modifyHead, hsplit]
    by_cases hx : x = c
    · refine ⟨[], part :: parts, by rw [if_pos (beq_iff_eq.mpr hx)], ?_, ?_⟩
      · rw [hx, List.flatMap_cons, List.nil_append, List.cons_append, ← htext]
      · intro t ht
        rcases List.mem_cons.mp ht with rfl | ht
        · exact List.not_mem_nil
        · exact hfree t ht
    · refine ⟨x :: part, parts, by rw [if_neg (by simpa using hx)]; rfl, ?_, ?_⟩
      · rw [List.cons_append, ← htext]
      · intro t ht
        rcases List.mem_cons.mp ht with rfl | ht
        · intro hmem
          rcases List.mem_cons.mp hmem with h | h
          · exact hx h.symm
          · exact hfree part List.mem_cons_self h
        · exact hfree t (List.mem_cons_of_mem _ ht)

/-- The parts are the text without the separators. -/
theorem flatten_splitOn (c : α) (text : List α) :
    (text.splitOn c).flatten = text.filter (· ≠ c) := by
  have hpart : ∀ t : List α, c ∉ t → t.filter (· ≠ c) = t := fun t ht =>
    List.filter_eq_self.mpr fun x hx => decide_eq_true fun h => ht (h ▸ hx)
  obtain ⟨part, parts, hsplit, htext, hfree⟩ := splitOn_parts c text
  have hparts : ∀ parts : List (List α), (∀ t ∈ parts, c ∉ t) →
      (parts.flatMap (fun part => c :: part)).filter (· ≠ c) = parts.flatten := by
    intro parts hfree
    induction parts with
    | nil => rfl
    | cons t parts ih =>
      rw [List.flatMap_cons, List.cons_append, List.filter_cons_of_neg (by simp),
        List.filter_append, hpart t (hfree t List.mem_cons_self),
        ih fun t ht => hfree t (List.mem_cons_of_mem _ ht)]
      rfl
  rw [hsplit, List.flatten_cons, htext, List.filter_append,
    hpart part (hfree part List.mem_cons_self),
    hparts parts fun t ht => hfree t (List.mem_cons_of_mem _ ht)]

end

/-! ## Decimal numbers -/

/-- The number that digits with these values write. -/
def decimal (digit : α → Nat) (text : List α) : Nat := Nat.ofDigits 10 (text.map digit).reverse

theorem foldl_eq_decimal (digit : α → Nat) (text : List α) :
    text.foldl (fun n ch => 10 * n + digit ch) 0 = decimal digit text := by
  induction text using List.reverseRecOn with
  | nil => rfl
  | append_singleton text ch ih =>
    rw [List.foldl_append, ih]
    simp [decimal, Nat.ofDigits_cons, Nat.add_comm]

/-! ## Characters in the C locale -/

/-- `std::isspace`. -/
def isBlank (c : Char) : Bool := c ∈ [' ', '\t', '\n', '\x0b', '\x0c', '\r']

theorem isBlank_of_isDigit {c : Char} (h : c.isDigit = true) : isBlank c = false := by
  rw [isBlank, decide_eq_false_iff_not]
  intro hmem
  simp only [List.mem_cons, List.not_mem_nil, or_false] at hmem
  rcases hmem with rfl | rfl | rfl | rfl | rfl | rfl <;> exact absurd h (by decide)

/-! ## Lines -/

/-- `std::getline`: the first line and what is behind it, or `none` at the end. -/
def getline (text : List Char) : Option (List Char × List Char) :=
  if text = [] then none
  else some (text.takeWhile (· ≠ '\n'), (text.dropWhile (· ≠ '\n')).tail)

theorem getline_line {line : List Char} (h : '\n' ∉ line) (rest : List Char) :
    getline (line ++ '\n' :: rest) = some (line, rest) := by
  have hall : ∀ c ∈ line, decide (c ≠ '\n') = true := fun c hc =>
    decide_eq_true fun hnewline => h (hnewline ▸ hc)
  rw [getline, if_neg (by simp), List.takeWhile_append_of_pos hall,
    List.dropWhile_append_of_pos hall]
  simp

/-- The text of a file with these lines. -/
def linesText (lines : List (List Char)) : List Char := lines.flatMap fun line => line ++ ['\n']

theorem linesText_cons (line : List Char) (lines : List (List Char)) :
    linesText (line :: lines) = line ++ '\n' :: linesText lines := by
  rw [linesText, List.flatMap_cons, List.append_assoc]
  rfl

/-! ## Quoted texts -/

def escaped (c : Char) : List Char := if c = '"' ∨ c = '\\' then ['\\', c] else [c]

/-- `std::quoted` on output. -/
def quoted (text : List Char) : List Char := '"' :: (text.flatMap escaped ++ ['"'])

theorem notMem_quoted {c : Char} (hquote : c ≠ '"') (hescape : c ≠ '\\') {text : List Char}
    (h : c ∉ text) : c ∉ quoted text := by
  have hescaped : ∀ x ∈ text, c ∉ escaped x := by
    intro x hx
    have hne : c ≠ x := fun heq => h (heq ▸ hx)
    rw [escaped]
    split <;> simp [hne, hescape]
  simp only [quoted, List.mem_cons, List.mem_append, List.mem_flatMap, List.not_mem_nil, or_false,
    not_or, not_exists, not_and]
  exact ⟨hquote, hescaped, hquote⟩

/-- Two quotation marks more than the text has. -/
theorem count_quoted (text : List Char) : (quoted text).count '"' = text.count '"' + 2 := by
  have hescaped : (text.flatMap escaped).count '"' = text.count '"' := by
    induction text with
    | nil => rfl
    | cons c text ih =>
      have hone : (escaped c).count '"' = [c].count '"' := by
        rw [escaped]
        split <;> simp
      rw [List.flatMap_cons, List.count_append, ih, hone, ← List.count_append]
      rfl
  rw [quoted, List.count_cons, List.count_append, hescaped]
  rfl

end MuonDetector.Library.Texts
