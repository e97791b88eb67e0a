import Mathlib.Computability.Language

/-!
# Regular expressions that backtrack

A pattern lists its matches at the front of a text in the order in which a backtracking
matcher tries them, each with what the group has captured. The first match that ends at
the end of the text is the answer to a full match. What a pattern matches is a word of
its language; which match comes first is found along one path of choices.
-/

namespace MuonDetector.Library.Regex

variable {α : Type}

/-- With one group at most. -/
inductive Pattern (α : Type)
  | empty
  | one (p : α → Bool)
  | seq (first second : Pattern α)
  | alt (first second : Pattern α)
  /-- As often as possible, and never without progress. -/
  | star (body : Pattern α)
  | group (body : Pattern α)

namespace Pattern

def optional (r : Pattern α) : Pattern α := alt r empty

def word [DecidableEq α] (w : List α) : Pattern α :=
  w.foldr (fun c r => seq (one fun x => x = c) r) empty

end Pattern

/-- A match at the front of a text: what the group has captured, and what is behind. -/
structure Found (α : Type) where
  capture : Option (List α) := none
  rest : List α

/-- The match `f` and behind it the match `g`. -/
def Found.andThen (f g : Found α) : Found α where
  capture := g.capture <|> f.capture
  rest := g.rest

def repeated (body : List α → List (Found α)) : Nat → List α → List (Found α)
  | 0, s => [{ rest := s }]
  | n + 1, s =>
    ((body s).filter fun f => f.rest.length < s.length).flatMap
      (fun f => (repeated body n f.rest).map f.andThen) ++ [{ rest := s }]

def results : Pattern α → List α → List (Found α)
  | .empty, s => [{ rest := s }]
  | .one _, [] => []
  | .one p, c :: s => if p c then [{ rest := s }] else []
  | .seq first second, s =>
    (results first s).flatMap fun f => (results second f.rest).map f.andThen
  | .alt first second, s => results first s ++ results second s
  | .star body, s => repeated (results body) s.length s
  | .group body, s => (results body s).map fun f =>
    { capture := some (s.take (s.length - f.rest.length)), rest := f.rest }

/-- What the group has captured in the first match that leaves nothing of the text. -/
def fullMatch (r : Pattern α) (s : List α) : Option (Option (List α)) :=
  ((results r s).find? fun f => f.rest.isEmpty).map Found.capture

/-! ## The repetition -/

/-- Each turn takes a character, so that more turns than characters change nothing. -/
theorem repeated_of_length_le (body : List α → List (Found α)) {m n : Nat} {s : List α}
    (hm : s.length ≤ m) (hn : s.length ≤ n) : repeated body m s = repeated body n s := by
  induction m generalizing n s with
  | zero =>
    have hnil : s = [] := List.eq_nil_of_length_eq_zero (by omega)
    subst hnil
    cases n <;> simp [repeated]
  | succ m ih =>
    cases n with
    | zero =>
      have hnil : s = [] := List.eq_nil_of_length_eq_zero (by omega)
      subst hnil
      simp [repeated]
    | succ n =>
      rw [repeated, repeated]
      congr 1
      apply List.flatMap_congr
      intro f hf
      have hlt : f.rest.length < s.length := of_decide_eq_true (List.mem_filter.mp hf).2
      rw [ih (by omega : f.rest.length ≤ m) (by omega : f.rest.length ≤ n)]

theorem results_star (r : Pattern α) (s : List α) :
    results (.star r) s =
      ((results r s).filter fun f => f.rest.length < s.length).flatMap
        (fun f => (results (.star r) f.rest).map f.andThen) ++ [{ rest := s }] := by
  cases s with
  | nil => simp [results, repeated]
  | cons c s =>
    rw [results, List.length_cons, repeated]
    congr 1
    apply List.flatMap_congr
    intro f hf
    have hlt := of_decide_eq_true (List.mem_filter.mp hf).2
    rw [List.length_cons] at hlt
    rw [results, repeated_of_length_le _ (by omega : f.rest.length ≤ s.length) (Nat.le_refl _)]

/-! ## The language -/

def language : Pattern α → Language α
  | .empty => 1
  | .one p => { w | ∃ c, p c = true ∧ w = [c] }
  | .seq first second => language first * language second
  | .alt first second => language first + language second
  | .star body => KStar.kstar (language body)
  | .group body => language body

theorem mem_language_word [DecidableEq α] {key w : List α} :
    w ∈ language (.word key) ↔ w = key := by
  induction key generalizing w with
  | nil => exact Language.mem_one w
  | cons c key ih =>
    show w ∈ language (.one fun x => decide (x = c)) * language (.word key) ↔ w = c :: key
    rw [Language.mem_mul]
    constructor
    · rintro ⟨_, ⟨x, hx, rfl⟩, v, hv, rfl⟩
      rw [ih.mp hv, of_decide_eq_true hx]
      rfl
    · rintro rfl
      exact ⟨[c], ⟨c, by simp, rfl⟩, key, ih.mpr rfl, rfl⟩

theorem all_of_mem_star_one {p : α → Bool} {w : List α} (h : w ∈ language (.star (.one p))) :
    ∀ c ∈ w, p c = true := by
  obtain ⟨parts, rfl, hparts⟩ := Language.mem_kstar.mp h
  intro c hc
  obtain ⟨part, hpart, hmem⟩ := List.mem_flatten.mp hc
  obtain ⟨x, hx, rfl⟩ := hparts part hpart
  rw [List.mem_singleton.mp hmem]
  exact hx

theorem mem_star_of_append {r : Pattern α} {u v : List α} (hu : u ∈ language r)
    (hv : v ∈ language (.star r)) : u ++ v ∈ language (.star r) := by
  obtain ⟨parts, rfl, hparts⟩ := Language.mem_kstar.mp hv
  refine Language.mem_kstar.mpr ⟨u :: parts, rfl, ?_⟩
  intro part hpart
  rcases List.mem_cons.mp hpart with rfl | hpart
  · exact hu
  · exact hparts part hpart

theorem repeated_sound {r : Pattern α}
    (hbody : ∀ s, ∀ f ∈ results r s, ∃ u ∈ language r, s = u ++ f.rest) (n : Nat) (s : List α) :
    ∀ f ∈ repeated (results r) n s, ∃ u ∈ language (.star r), s = u ++ f.rest := by
  induction n generalizing s with
  | zero =>
    intro f hf
    rw [List.mem_singleton.mp hf]
    exact ⟨[], Language.nil_mem_kstar _, rfl⟩
  | succ n ih =>
    intro f hf
    rcases List.mem_append.mp hf with hf | hf
    · obtain ⟨g, hg, hf⟩ := List.mem_flatMap.mp hf
      obtain ⟨k, hk, rfl⟩ := List.mem_map.mp hf
      obtain ⟨u, hu, hsu⟩ := hbody s g (List.mem_filter.mp hg).1
      obtain ⟨v, hv, hsv⟩ := ih g.rest k hk
      refine ⟨u ++ v, mem_star_of_append hu hv, ?_⟩
      rw [List.append_assoc, Found.andThen, ← hsv]
      exact hsu
    · rw [List.mem_singleton.mp hf]
      exact ⟨[], Language.nil_mem_kstar _, rfl⟩

/-- What is matched is a word of the language. -/
theorem results_sound (r : Pattern α) (s : List α) :
    ∀ f ∈ results r s, ∃ u ∈ language r, s = u ++ f.rest := by
  induction r generalizing s with
  | empty =>
    intro f hf
    rw [List.mem_singleton.mp hf]
    exact ⟨[], Language.nil_mem_one, rfl⟩
  | one p =>
    intro f hf
    cases s with
    | nil => cases hf
    | cons c s =>
      rw [results] at hf
      split at hf
      · next hc =>
        rw [List.mem_singleton.mp hf]
        exact ⟨[c], ⟨c, hc, rfl⟩, rfl⟩
      · cases hf
  | seq first second ihf ihs =>
    intro f hf
    obtain ⟨g, hg, hf⟩ := List.mem_flatMap.mp hf
    obtain ⟨k, hk, rfl⟩ := List.mem_map.mp hf
    obtain ⟨u, hu, hsu⟩ := ihf s g hg
    obtain ⟨v, hv, hsv⟩ := ihs g.rest k hk
    refine ⟨u ++ v, Language.mem_mul.mpr ⟨u, hu, v, hv, rfl⟩, ?_⟩
    rw [List.append_assoc, Found.andThen, ← hsv]
    exact hsu
  | alt first second ihf ihs =>
    intro f hf
    rcases List.mem_append.mp hf with hf | hf
    · obtain ⟨u, hu, hsu⟩ := ihf s f hf
      exact ⟨u, .inl hu, hsu⟩
    · obtain ⟨u, hu, hsu⟩ := ihs s f hf
      exact ⟨u, .inr hu, hsu⟩
  | star body ih => exact repeated_sound ih s.length s
  | group body ih =>
    intro f hf
    obtain ⟨g, hg, rfl⟩ := List.mem_map.mp hf
    exact ih s g hg

theorem mem_language_of_fullMatch {r : Pattern α} {s : List α} {c : Option (List α)}
    (h : fullMatch r s = some c) : s ∈ language r := by
  obtain ⟨f, hfind, -⟩ := Option.map_eq_some_iff.mp h
  obtain ⟨u, hu, hs⟩ := results_sound r s f (List.mem_of_find?_eq_some hfind)
  have hrest : f.rest.isEmpty = true := by
    simpa using List.find?_some hfind
  rw [List.isEmpty_iff.mp hrest, List.append_nil] at hs
  exact hs ▸ hu

/-! ## What is captured -/

/-- The pattern has no group. -/
def Pattern.isPlain : Pattern α → Bool
  | .empty => true
  | .one _ => true
  | .seq first second => first.isPlain && second.isPlain
  | .alt first second => first.isPlain && second.isPlain
  | .star body => body.isPlain
  | .group _ => false

theorem isPlain_word [DecidableEq α] (w : List α) : (Pattern.word w).isPlain = true := by
  induction w with
  | nil => rfl
  | cons c w ih => exact ih

theorem repeated_capture {r : Pattern α} (hbody : ∀ s, ∀ f ∈ results r s, f.capture = none)
    (n : Nat) (s : List α) : ∀ f ∈ repeated (results r) n s, f.capture = none := by
  induction n generalizing s with
  | zero =>
    intro f hf
    rw [List.mem_singleton.mp hf]
  | succ n ih =>
    intro f hf
    rcases List.mem_append.mp hf with hf | hf
    · obtain ⟨g, hg, hf⟩ := List.mem_flatMap.mp hf
      obtain ⟨k, hk, rfl⟩ := List.mem_map.mp hf
      rw [Found.andThen, ih g.rest k hk, hbody s g (List.mem_filter.mp hg).1]
      rfl
    · rw [List.mem_singleton.mp hf]

theorem capture_of_isPlain {r : Pattern α} (h : r.isPlain = true) (s : List α) :
    ∀ f ∈ results r s, f.capture = none := by
  induction r generalizing s with
  | empty =>
    intro f hf
    rw [List.mem_singleton.mp hf]
  | one p =>
    intro f hf
    cases s with
    | nil => cases hf
    | cons c s =>
      rw [results] at hf
      split at hf
      · rw [List.mem_singleton.mp hf]
      · cases hf
  | seq first second ihf ihs =>
    obtain ⟨hfirst, hsecond⟩ := Bool.and_eq_true_iff.mp h
    intro f hf
    obtain ⟨g, hg, hf⟩ := List.mem_flatMap.mp hf
    obtain ⟨k, hk, rfl⟩ := List.mem_map.mp hf
    rw [Found.andThen, ihf hfirst s g hg, ihs hsecond g.rest k hk]
    rfl
  | alt first second ihf ihs =>
    obtain ⟨hfirst, hsecond⟩ := Bool.and_eq_true_iff.mp h
    intro f hf
    rcases List.mem_append.mp hf with hf | hf
    · exact ihf hfirst s f hf
    · exact ihs hsecond s f hf
  | star body ih => exact repeated_capture (ih h) s.length s
  | group body ih => cases h

/-- A match of two patterns in a row, of which the first has no group. -/
theorem results_seq_plain {first second : Pattern α} (h : first.isPlain = true) {s : List α}
    {f : Found α} (hf : f ∈ results (.seq first second) s) :
    ∃ u ∈ language first, ∃ t, s = u ++ t ∧ f ∈ results second t := by
  obtain ⟨g, hg, hf⟩ := List.mem_flatMap.mp hf
  obtain ⟨k, hk, rfl⟩ := List.mem_map.mp hf
  obtain ⟨u, hu, hs⟩ := results_sound first s g hg
  refine ⟨u, hu, g.rest, hs, ?_⟩
  have hsame : g.andThen k = k := by
    rw [Found.andThen, capture_of_isPlain h s g hg]
    cases k with
    | mk capture rest => cases capture <;> rfl
  rwa [hsame]

/-- A match of the group, and behind it of a pattern without one. -/
theorem results_seq_group {body second : Pattern α} (h : second.isPlain = true) {s : List α}
    {f : Found α} (hf : f ∈ results (.seq (.group body) second) s) :
    ∃ u ∈ language body, ∃ v ∈ language second, s = u ++ (v ++ f.rest) ∧ f.capture = some u := by
  obtain ⟨g, hg, hf⟩ := List.mem_flatMap.mp hf
  obtain ⟨k, hk, rfl⟩ := List.mem_map.mp hf
  obtain ⟨b, hb, rfl⟩ := List.mem_map.mp hg
  obtain ⟨u, hu, hs⟩ := results_sound body s b hb
  obtain ⟨v, hv, hrest⟩ := results_sound second b.rest k hk
  refine ⟨u, hu, v, hv, ?_, ?_⟩
  · rw [hs]
    exact congrArg (u ++ ·) hrest
  · have htake : s.take (s.length - b.rest.length) = u := by
      rw [hs, List.length_append, Nat.add_sub_cancel, List.take_left]
    rw [Found.andThen, capture_of_isPlain h b.rest k hk, htake]
    rfl

/-! ## The first match -/

/-- The match that is tried first. -/
def First (r : Pattern α) (s : List α) (f : Found α) : Prop := (results r s).head? = some f

theorem fullMatch_of_first {r : Pattern α} {s : List α} {c : Option (List α)}
    (h : First r s { capture := c, rest := [] }) : fullMatch r s = some c := by
  obtain ⟨others, hresults⟩ := List.head?_eq_some_iff.mp h
  rw [fullMatch, hresults]
  rfl

theorem first_one {p : α → Bool} {c : α} (h : p c = true) (s : List α) :
    First (.one p) (c :: s) { rest := s } := by
  rw [First, results, if_pos h]
  rfl

theorem results_one_of_not {p : α → Bool} {s : List α} (h : ∀ c ∈ s.head?, p c = false) :
    results (.one p) s = [] := by
  cases s with
  | nil => rfl
  | cons c s => rw [results, h c rfl, if_neg Bool.false_ne_true]

theorem results_seq_of_nil {first second : Pattern α} {s : List α} (h : results first s = []) :
    results (.seq first second) s = [] := by
  rw [results, h]
  rfl

theorem first_seq {first second : Pattern α} {s : List α} {f g : Found α} (hf : First first s f)
    (hg : First second f.rest g) : First (.seq first second) s (f.andThen g) := by
  obtain ⟨fs, hfs⟩ := List.head?_eq_some_iff.mp hf
  obtain ⟨gs, hgs⟩ := List.head?_eq_some_iff.mp hg
  rw [First, results, hfs, List.flatMap_cons, hgs]
  rfl

theorem first_word [DecidableEq α] (w s : List α) :
    First (.word w) (w ++ s) { rest := s } := by
  induction w with
  | nil => rfl
  | cons c w ih => exact first_seq (first_one (by simp) _) ih

theorem first_alt_left {first second : Pattern α} {s : List α} {f : Found α}
    (h : First first s f) : First (.alt first second) s f := by
  obtain ⟨fs, hfs⟩ := List.head?_eq_some_iff.mp h
  rw [First, results, hfs]
  rfl

theorem first_alt_right {first second : Pattern α} {s : List α} {f : Found α}
    (hfirst : results first s = []) (h : First second s f) : First (.alt first second) s f := by
  rw [First, results, hfirst]
  exact h

theorem first_star_stop {r : Pattern α} {s : List α} (h : results r s = []) :
    First (.star r) s { rest := s } := by
  rw [First, results_star, h]
  rfl

theorem first_star_more {r : Pattern α} {s : List α} {f g : Found α} (hf : First r s f)
    (hlt : f.rest.length < s.length) (hg : First (.star r) f.rest g) :
    First (.star r) s (f.andThen g) := by
  obtain ⟨fs, hfs⟩ := List.head?_eq_some_iff.mp hf
  obtain ⟨gs, hgs⟩ := List.head?_eq_some_iff.mp hg
  rw [First, results_star, hfs, List.filter_cons_of_pos (by simpa using hlt), List.flatMap_cons,
    hgs]
  rfl

theorem first_star_one {p : α → Bool} {w s : List α} (hw : ∀ c ∈ w, p c = true)
    (hs : ∀ c ∈ s.head?, p c = false) : First (.star (.one p)) (w ++ s) { rest := s } := by
  induction w with
  | nil => exact first_star_stop (results_one_of_not hs)
  | cons c w ih =>
    refine first_star_more (first_one (hw c List.mem_cons_self) (w ++ s)) ?_
      (ih fun x hx => hw x (List.mem_cons_of_mem c hx))
    exact Nat.lt_succ_self _

theorem first_group {r : Pattern α} {w s : List α} {c : Option (List α)}
    (h : First r (w ++ s) { capture := c, rest := s }) :
    First (.group r) (w ++ s) { capture := some w, rest := s } := by
  obtain ⟨fs, hfs⟩ := List.head?_eq_some_iff.mp h
  rw [First, results, hfs, List.map_cons, List.head?_cons, List.length_append,
    Nat.add_sub_cancel, List.take_left]

end MuonDetector.Library.Regex
