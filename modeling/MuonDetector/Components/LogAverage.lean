import MuonDetector.Components.Logging
import Mathlib.Tactic.FieldSimp
import Mathlib.Tactic.Ring
import Mathlib.Tactic.Linarith

/-!
# Values that are averaged

Between two updates the values of a name are only collected. The update cuts the number
off the front of each and the unit off the end of the last. A value without a unit is
all number and all unit.
-/

namespace MuonDetector.Components.LogAverage

open MuonDetector.Library MuonDetector.Components.Logging

def isDecimalChar (c : Char) : Bool := c.isDigit || c ∈ ['+', '-', '.', 'e', 'E']

/-- A decimal number with its unit, if it has one. -/
structure Reading where
  number : Text
  value : ℚ
  unit : Option Text
  decimal : number.all isDecimalChar = true
  parsed : stod number = some value
  unitToken : ∀ u ∈ unit, u ≠ [] ∧ ' ' ∉ u

def Reading.text (r : Reading) : Text :=
  match r.unit with
  | none => r.number
  | some u => r.number ++ ' ' :: u

def mean (xs : List ℚ) : ℚ := xs.sum / xs.length

/-! ## Tokens -/

theorem space_notMem (r : Reading) : ' ' ∉ r.number :=
  fun h => absurd (List.all_eq_true.mp r.decimal ' ' h) (by decide)

theorem firstToken_text (r : Reading) : firstToken r.text = r.number := by
  have hall : ∀ c ∈ r.number, decide (c ≠ ' ') = true := fun c hc =>
    decide_eq_true fun h => space_notMem r (h ▸ hc)
  rw [Reading.text, firstToken]
  split
  · exact List.takeWhile_eq_self_iff.mpr hall
  · rw [List.takeWhile_append_of_pos hall]
    simp

theorem number_ne_nil (r : Reading) : r.number ≠ [] := by
  intro hnil
  have hparsed := r.parsed
  rw [hnil] at hparsed
  cases hparsed

theorem lastToken_of_notMem {s : Text} (h : ' ' ∉ s) : lastToken s = s :=
  List.rtakeWhile_eq_self_iff.mpr fun _ hc => decide_eq_true fun hspace => h (hspace ▸ hc)

theorem lastToken_space (s : Text) {u : Text} (h : ' ' ∉ u) : lastToken (s ++ ' ' :: u) = u := by
  induction u using List.reverseRecOn with
  | nil => exact List.rtakeWhile_concat_neg _ _ _ (by simp)
  | append_singleton u c ih =>
    rw [List.mem_append, not_or, List.mem_singleton] at h
    have hc : decide (c ≠ ' ') = true := decide_eq_true (Ne.symm h.2)
    have hsplit : s ++ ' ' :: (u ++ [c]) = s ++ ' ' :: u ++ [c] := by simp
    have htoken : lastToken (s ++ ' ' :: u ++ [c]) = lastToken (s ++ ' ' :: u) ++ [c] :=
      List.rtakeWhile_concat_pos _ _ _ hc
    rw [hsplit, htoken, ih h.1]

/-- **The last token is the unit exactly if there is one.** -/
theorem lastToken_text (r : Reading) : lastToken r.text = r.unit.getD [] ↔ r.unit ≠ none := by
  cases hunit : r.unit with
  | none =>
    rw [Reading.text, hunit, lastToken_of_notMem (space_notMem r)]
    simp [number_ne_nil r]
  | some u =>
    rw [Reading.text, hunit, lastToken_space _ (r.unitToken u hunit).2]
    simp

/-! ## The sum -/

def sumFrom (a : ℚ) (list : List LogParameter) : Option ℚ :=
  list.foldlM (fun sum p => (stod (firstToken p.value)).map (sum + ·)) a

theorem sumFrom_eq (a : ℚ) (list : List LogParameter) :
    sumFrom a list = (sumNumbers list).map (a + ·) := by
  have hshift : ∀ (list : List LogParameter) (a b : ℚ),
      sumFrom (a + b) list = (sumFrom b list).map (a + ·) := by
    intro list
    induction list with
    | nil => intro a b; rfl
    | cons p list ih =>
      intro a b
      simp only [sumFrom, List.foldlM_cons]
      cases stod (firstToken p.value) with
      | none => rfl
      | some x =>
        simp only [Option.map_some, Option.bind_eq_bind, Option.bind_some]
        rw [add_assoc]
        exact ih a (b + x)
  have h := hshift list a 0
  rwa [add_zero] at h

theorem sumNumbers_append (xs ys : List LogParameter) :
    sumNumbers (xs ++ ys) = (sumNumbers xs).bind fun a => (sumNumbers ys).map (a + ·) := by
  rw [sumNumbers, List.foldlM_append]
  exact congrArg _ (funext fun a => sumFrom_eq a ys)

theorem sumNumbers_readings {ps : List LogParameter} {rs : List Reading}
    (h : ps.map (·.value) = rs.map Reading.text) :
    sumNumbers ps = some (rs.map (·.value)).sum := by
  induction ps generalizing rs with
  | nil =>
    have hrs : rs = [] := List.map_eq_nil_iff.mp h.symm
    rw [hrs]
    rfl
  | cons p ps ih =>
    cases rs with
    | nil => cases h
    | cons r rs =>
      rw [List.map_cons, List.map_cons] at h
      obtain ⟨hhead, htail⟩ := List.cons.inj h
      have hone : sumNumbers [p] = some r.value := by
        simp [sumNumbers, hhead, firstToken_text, r.parsed]
      have hsplit : p :: ps = [p] ++ ps := rfl
      rw [hsplit, sumNumbers_append, hone, ih htail]
      simp

/-! ## A batch -/

/-- What a batch of values makes of the entry that was left before it. -/
structure Collected (name : String) (s₀ : LogEngine) (batch : List Event) (s : LogEngine)
    (ps : List LogParameter) : Prop where
  texts : ps.map (·.value) = values name batch
  types : ∀ p ∈ ps, p.logType = LOG_AVERAGE
  entry : (s.logData name).getD [] = (s₀.logData name).getD [] ++ ps
  present : ps ≠ [] → s.logData name ≠ none
  silent : s.published name = s₀.published name

theorem Collected.step {name : String} {s₀ s s' : LogEngine} {batch : List Event} {e : Event}
    {ps : List LogParameter} (h : Collected name s₀ batch s ps)
    (hstep : Logging.step s e = some s') (hno : isUpdate e = false)
    (honly : OnlyType LOG_AVERAGE name (batch ++ [e])) :
    ∃ ps', Collected name s₀ (batch ++ [e]) s' ps' := by
  rcases honly.step_cases (by decide) hstep with
    ⟨p, rfl, rfl, htype, hdata, hpublished⟩ | ⟨-, hvalues, hdata, hpublished⟩ | ⟨rfl, -⟩
  · refine ⟨ps ++ [p.setUpdatedRecently true], ?_, ?_, ?_, ?_, hpublished.trans h.silent⟩
    · rw [List.map_append, h.texts, values_append, values_received]
      rfl
    · exact types_concat h.types htype
    · rw [hdata, Option.getD_some, h.entry, List.append_assoc]
    · intro _
      rw [hdata]
      exact Option.some_ne_none _
  · exact ⟨ps, h.texts.trans (values_silent hvalues batch).symm, h.types,
      by rw [hdata, h.entry], by rw [hdata]; exact h.present, hpublished.trans h.silent⟩
  · cases hno

theorem collected_run {name : String} {s₀ s : LogEngine} {batch : List Event}
    (h : run s₀ batch = some s) (hno : ∀ e ∈ batch, isUpdate e = false)
    (honly : OnlyType LOG_AVERAGE name batch) : ∃ ps, Collected name s₀ batch s ps := by
  refine Machine.run_history
    (I := fun es s => (∀ e ∈ es, isUpdate e = false) → OnlyType LOG_AVERAGE name es →
      ∃ ps, Collected name s₀ es s ps) ?_
    (fun _ _ => ⟨[], rfl, by simp, by simp, by simp, rfl⟩) h hno honly
  intro es s e s' hi hstep hno honly
  obtain ⟨ps, hps⟩ := hi (fun e he => hno e (by simp [he])) honly.before
  exact hps.step hstep (hno e (by simp)) honly

/-! ## The update -/

/-- What is left of the name from before the batch does not change the mean. -/
def LeavesMean (leftover : List LogParameter) (m : ℚ) : Prop :=
  leftover = [] ∨ ∃ sum, sumNumbers leftover = some sum ∧ sum / leftover.length = m

/-- One line with the mean and the unit of the last value, and no entry for the next batch. -/
structure AverageLaw (name : String) (s : LogEngine) (readings : List Reading) (last : Reading) :
    Prop where
  line : (update s).published name =
    s.published name ++ [.average (mean (readings.map (·.value))) (last.unit.getD [])]
  erased : (update s).logData name = none

/-- Two parts have the mean of the second exactly if the first has it too. -/
theorem mean_of_parts {a b : ℚ} {m n : Nat} (hm : 0 < m) (hn : 0 < n) :
    (a + b) / (m + n : Nat) = b / n ↔ a / m = b / n := by
  have hm' : (0 : ℚ) < m := Nat.cast_pos.mpr hm
  have hn' : (0 : ℚ) < n := Nat.cast_pos.mpr hn
  push_cast
  rw [div_eq_div_iff (by linarith) (by linarith), div_eq_div_iff (by linarith) (by linarith)]
  constructor <;> intro h <;> linarith

theorem updateList_average {front : LogParameter} {rest : List LogParameter}
    (h : (back front rest).logType = LOG_AVERAGE) (flag : Bool) :
    Logging.updateList flag (front :: rest) =
      (updateAverage (front :: rest) (back front rest), none) := by
  simp only [Logging.updateList, h]
  rfl

theorem Collected.updateList {name : String} {s₀ s : LogEngine} {batch : List Event}
    {ps : List LogParameter} {p : LogParameter} (h : Collected name s₀ batch s (ps ++ [p])) :
    ∃ list, s.logData name = some list ∧ list = (s₀.logData name).getD [] ++ (ps ++ [p]) ∧
      ∀ flag, Logging.updateList flag list = (updateAverage list p, none) := by
  obtain ⟨list, hlist⟩ := Option.ne_none_iff_exists'.mp (h.present (by simp))
  have hentry := h.entry
  rw [hlist, Option.getD_some] at hentry
  refine ⟨list, hlist, hentry, ?_⟩
  intro flag
  have hne : list ≠ [] := by simp [hentry]
  have hlast : list.getLast hne = p := by simp [hentry]
  obtain ⟨front, rest, rfl⟩ := List.exists_cons_of_ne_nil hne
  have hback : back front rest = p := by
    rw [back, ← List.getLast_eq_getLastD hne, hlast]
  have htype : (back front rest).logType = LOG_AVERAGE := by
    rw [hback]
    exact h.types p (by simp)
  rw [updateList_average htype, hback]

/-- The lines of the update after a batch. -/
theorem updateLines_average {name : String} {s₀ s : LogEngine} {batch : List Event}
    {readings : List Reading} {last : Reading} {ps : List LogParameter}
    (h : Collected name s₀ batch s ps)
    (hvalues : values name batch = (readings ++ [last]).map Reading.text) :
    (update s).logData name = none ∧
    updateLines s name =
      match sumNumbers ((s₀.logData name).getD []) with
      | some a => [.average ((a + ((readings ++ [last]).map (·.value)).sum) /
          (((s₀.logData name).getD []).length + (readings ++ [last]).length : Nat))
            (lastToken last.text)]
      | none => [] := by
  have htexts := h.texts.trans hvalues
  have hlen : ps.length = (readings ++ [last]).length := by
    simpa using congrArg List.length htexts
  have hsum := sumNumbers_readings htexts
  rcases List.eq_nil_or_concat ps with rfl | ⟨init, p, hconcat⟩
  · simp at hlen
  rw [List.concat_eq_append] at hconcat
  subst hconcat
  have hp : p.value = last.text := by
    rw [List.map_append, List.map_append] at htexts
    simpa using (List.append_inj' htexts rfl).2
  obtain ⟨list, hlist, hentry, hupdate⟩ := h.updateList
  constructor
  · simp only [update, hlist, Option.bind_some, hupdate]
  · simp only [updateLines, hlist, hupdate]
    rw [updateAverage, hentry, sumNumbers_append, hsum]
    cases sumNumbers ((s₀.logData name).getD []) with
    | none => rfl
    | some a =>
      rw [Option.bind_some, Option.map_some, List.length_append, hlen, hp]

theorem leavesMean_iff {leftover : List LogParameter} {a b : ℚ} {n : Nat} (hn : 0 < n)
    (ha : sumNumbers leftover = some a) :
    (a + b) / (leftover.length + n : Nat) = b / n ↔ LeavesMean leftover (b / n) := by
  by_cases hnil : leftover = []
  · subst hnil
    obtain rfl : 0 = a := Option.some.inj ha
    simp [LeavesMean]
  · rw [mean_of_parts (List.length_pos_iff.mpr hnil) hn, LeavesMean, ha]
    simp [hnil]

/-- **After a batch the update writes the one line that is asked for exactly if the last value
has a unit and nothing left of the name from before changes the mean.** -/
theorem average_line_iff (name : String) {s₀ s : LogEngine} {batch : List Event}
    {readings : List Reading} {last : Reading} (hrun : run s₀ batch = some s)
    (hno : ∀ e ∈ batch, isUpdate e = false) (honly : OnlyType LOG_AVERAGE name batch)
    (hvalues : values name batch = (readings ++ [last]).map Reading.text) :
    AverageLaw name s (readings ++ [last]) last ↔ last.unit ≠ none ∧
      LeavesMean ((s₀.logData name).getD []) (mean ((readings ++ [last]).map (·.value))) := by
  obtain ⟨ps, hps⟩ := collected_run hrun hno honly
  obtain ⟨herased, hlines⟩ := updateLines_average hps hvalues
  have hlaw : AverageLaw name s (readings ++ [last]) last ↔ updateLines s name =
      [.average (mean ((readings ++ [last]).map (·.value))) (last.unit.getD [])] :=
    ⟨fun law => List.append_cancel_left law.line,
      fun hline => ⟨congrArg (s.published name ++ ·) hline, herased⟩⟩
  rw [hlaw, hlines]
  have hpos : 0 < (readings ++ [last]).length := by simp
  cases hsum : sumNumbers ((s₀.logData name).getD []) with
  | none =>
    have hne : (s₀.logData name).getD [] ≠ [] := by
      intro hnil
      rw [hnil] at hsum
      cases hsum
    simp [LeavesMean, hne, hsum]
  | some a =>
    simp only [List.cons.injEq, Line.average.injEq, and_true, lastToken_text, mean, List.length_map]
    rw [leavesMean_iff hpos hsum, and_comm]

/-- A rate, which is sent with its unit. -/
def rateXOR (number : Text) (value : ℚ) (decimal : number.all isDecimalChar = true)
    (parsed : stod number = some value) : Reading where
  number := number
  value := value
  unit := some ['H', 'z']
  decimal := decimal
  parsed := parsed
  unitToken := by simp

/-- A dilution of precision, which is sent without a unit. -/
def positionDOP : Reading where
  number := ['1', '.', '5']
  value := 3 / 2
  unit := none
  decimal := by decide
  parsed := by decide +kernel
  unitToken := by simp

def averaged (name : String) (r : Reading) : Event := .received ⟨name, r.text, true, LOG_AVERAGE⟩

theorem average_line_iff_rate :
    let slow := rateXOR ['2', '.', '5'] (5 / 2) (by decide) (by decide +kernel)
    let fast := rateXOR ['3'] 3 (by decide) (by decide +kernel)
    ∃ s, run (update {}) [averaged "rateXOR" slow, averaged "rateXOR" fast] = some s ∧
      AverageLaw "rateXOR" s [slow, fast] fast := by
  intro slow fast
  have hrun : run (update {}) [averaged "rateXOR" slow, averaged "rateXOR" fast] = some _ := rfl
  have hvalues : values "rateXOR" [averaged "rateXOR" slow, averaged "rateXOR" fast] =
      ([slow] ++ [fast]).map Reading.text := rfl
  refine ⟨_, hrun, (average_line_iff "rateXOR" hrun ?_ ?_ hvalues).mpr ⟨?_, Or.inl rfl⟩⟩
  · decide
  · intro p hp _
    simp only [averaged, List.mem_cons, List.not_mem_nil, or_false, Event.received.injEq] at hp
    rcases hp with rfl | rfl <;> rfl
  · exact Option.some_ne_none _

/-- The number of a value without a unit is written once more in the place of the unit. -/
theorem dop_without_unit :
    ∃ s, run (update {}) [averaged "positionDOP" positionDOP] = some s ∧
      (update s).published "positionDOP" = [.average (3 / 2) ['1', '.', '5']] ∧
      ¬ AverageLaw "positionDOP" s [positionDOP] positionDOP := by
  refine ⟨_, rfl, by decide +kernel, ?_⟩
  intro law
  exact absurd law.line (by decide +kernel)

/-! ## Names that are only averaged -/

/-- The list of a name all of whose parameters are averaged. -/
def AverageList (list : Option (List LogParameter)) : Prop :=
  ∀ ps ∈ list, ps ≠ [] ∧ ∀ p ∈ ps, p.logType = LOG_AVERAGE

theorem AverageList.received {list : Option (List LogParameter)} {p : LogParameter}
    (h : AverageList list) (htype : p.logType = LOG_AVERAGE) :
    AverageList (some (list.getD [] ++ [p.setUpdatedRecently true])) := by
  rintro ps ⟨⟩
  refine ⟨by simp, types_concat ?_ htype⟩
  cases list with
  | none => simp
  | some list => exact (h list rfl).2

/-- The update erases it. -/
theorem AverageList.updated {name : String} {s : LogEngine} (h : AverageList (s.logData name)) :
    (update s).logData name = none := by
  cases hlist : s.logData name with
  | none => simp [update, hlist]
  | some list =>
    obtain ⟨hne, htypes⟩ := h list hlist
    obtain ⟨front, rest, rfl⟩ := List.exists_cons_of_ne_nil hne
    have hlast := htypes (back front rest) (back_mem front rest)
    simp only [update, hlist, Option.bind_some, updateList_average hlast]

theorem averageList_run {name : String} {es : List Event} {s : LogEngine} (h : run {} es = some s)
    (honly : OnlyType LOG_AVERAGE name es) : AverageList (s.logData name) := by
  refine Machine.run_history
    (I := fun es s => OnlyType LOG_AVERAGE name es → AverageList (s.logData name)) ?_ ?_ h honly
  · intro es s e s' hi hstep honly
    have hbefore := hi honly.before
    rcases honly.step_cases (by decide) hstep with
      ⟨p, -, -, htype, hdata, -⟩ | ⟨-, -, hdata, -⟩ | ⟨-, rfl⟩
    · rw [hdata]
      exact hbefore.received htype
    · rw [hdata]
      exact hbefore
    · rw [hbefore.updated]
      rintro ps ⟨⟩
  · rintro _ ps ⟨⟩

/-- **An update leaves nothing of a name that has only been averaged.** -/
theorem nothing_left {name : String} {es : List Event} {s : LogEngine}
    (h : run {} (es ++ [.update]) = some s) (honly : OnlyType LOG_AVERAGE name es) :
    s.logData name = none := by
  obtain ⟨s', u, hrun, hupdate, hnil⟩ := Machine.run_append_cons.mp h
  obtain rfl := Option.some.inj hnil
  rw [← Option.some.inj hupdate]
  exact (averageList_run hrun honly).updated

end MuonDetector.Components.LogAverage
