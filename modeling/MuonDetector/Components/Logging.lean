import MuonDetector.Library.Machine
import MuonDetector.Library.Texts
import Mathlib.Data.List.DropRight
import Mathlib.Algebra.Field.Rat
import Mathlib.Logic.Function.Basic

/-!
# The log engine

Parameters are collected by name in lists, and `update` writes a line for some of the
names and trims the lists. Which line it writes, and whether any, is decided by the
type of the last parameter of the list and by a flag kept in the first one. The names
do not depend on each other, so the lines are listed for each name; each stands for the
two equal events that carry it. The time stamp in front is left out.
-/

namespace MuonDetector.Components.Logging

open MuonDetector.Library

abbrev Text := List Char

def LOG_NEVER : Int := 0
def LOG_ONCE : Int := 1
def LOG_EVERY : Int := 2
def LOG_LATEST : Int := 3
def LOG_AVERAGE : Int := 4
def LOG_ON_CHANGE : Int := 5

structure LogParameter where
  name : String
  value : Text
  updated : Bool := false
  logType : Int := LOG_NEVER
  deriving DecidableEq, Repr

def LogParameter.setUpdatedRecently (p : LogParameter) (updated : Bool) : LogParameter :=
  { p with updated := updated }

/-- What a line has behind the name: a value, or a mean and a unit. -/
inductive Line where
  | value (value : Text)
  | average (mean : ℚ) (unit : Text)
  deriving DecidableEq, Repr

/-! ## Numbers and units -/

def firstToken (s : Text) : Text := s.takeWhile (· ≠ ' ')

def lastToken (s : Text) : Text := s.rtakeWhile (· ≠ ' ')

/-- The digits of the exponent behind its sign, as a number. -/
def exponent : Text → Int
  | '-' :: digits => -Nat.ofDigitChars 10 (digits.takeWhile Char.isDigit) 0
  | '+' :: digits => Nat.ofDigitChars 10 (digits.takeWhile Char.isDigit) 0
  | digits => Nat.ofDigitChars 10 (digits.takeWhile Char.isDigit) 0

/-- The value of a decimal without a sign, or `none` where there is no number. -/
def magnitude (s : Text) : Option ℚ :=
  let whole := s.takeWhile Char.isDigit
  let rest := s.dropWhile Char.isDigit
  let fraction := if rest.head? = some '.' then rest.tail.takeWhile Char.isDigit else []
  let rest := if rest.head? = some '.' then rest.tail.dropWhile Char.isDigit else rest
  let scale : Int := if rest.head? = some 'e' ∨ rest.head? = some 'E' then exponent rest.tail else 0
  if whole = [] ∧ fraction = [] then none
  else some (Nat.ofDigitChars 10 (whole ++ fraction) 0 * (10 : ℚ) ^ (scale - fraction.length))

/-- `std::stod` on decimals, without rounding. -/
def stod (s : Text) : Option ℚ :=
  match s.dropWhile Texts.isBlank with
  | '-' :: rest => (magnitude rest).map fun x => -x
  | '+' :: rest => magnitude rest
  | rest => magnitude rest

/-- The sum that the loop over the list makes, if every value begins with a number. -/
def sumNumbers (list : List LogParameter) : Option ℚ :=
  list.foldlM (fun sum p => (stod (firstToken p.value)).map (sum + ·)) 0

/-! ## One list -/

/-- The last parameter of a list that begins with `front`. -/
def back (front : LogParameter) (rest : List LogParameter) : LogParameter := rest.getLastD front

theorem back_concat (front p : LogParameter) (rest : List LogParameter) :
    back front (rest ++ [p]) = p := by
  simp [back]

theorem back_mem (front : LogParameter) (rest : List LogParameter) :
    back front rest ∈ front :: rest := by
  rw [back, ← List.getLast_eq_getLastD (List.cons_ne_nil front rest)]
  exact List.getLast_mem _

def clearFront : List LogParameter → List LogParameter
  | [] => []
  | front :: rest => front.setUpdatedRecently false :: rest

/-- `pop_front` until `n` parameters are left. -/
def keepLast (n : Nat) (list : List LogParameter) : List LogParameter := list.drop (list.length - n)

def updateAverage (list : List LogParameter) (last : LogParameter) : List Line :=
  match sumNumbers list with
  | some sum => [.average (sum / list.length) (lastToken last.value)]
  | none => []

def updateOnChange (flag : Bool) (front : LogParameter) (rest : List LogParameter) :
    List Line × List LogParameter :=
  if flag || front.updated then
    ([.value (back front rest).value], [front.setUpdatedRecently false])
  else
    match rest.find? (fun p => p.value ≠ front.value) with
    | some p => ([.value p.value], [p.setUpdatedRecently false])
    | none => ([], [front.setUpdatedRecently false])

/-- What `update` does with a list: its lines, and the list that stays unless it is erased. -/
def updateList (flag : Bool) : List LogParameter → List Line × Option (List LogParameter)
  | [] => ([], some [])
  | front :: rest =>
    let last := back front rest
    if last.logType = LOG_LATEST then ([.value last.value], none)
    else if last.logType = LOG_AVERAGE then (updateAverage (front :: rest) last, none)
    else if last.logType = LOG_ONCE then
      (if flag || front.updated then [.value last.value] else [],
        some (clearFront (keepLast 2 (front :: rest))))
    else if last.logType = LOG_ON_CHANGE then
      let r := updateOnChange flag front rest
      (r.1, some r.2)
    else ([], some (front :: rest))

/-! ## The engine -/

/-- The lists, and for each name the lines published so far. -/
structure LogEngine where
  logData : String → Option (List LogParameter) := fun _ => none
  onceLogFlag : Bool := true
  published : String → List Line := fun _ => []

def publish (s : LogEngine) (name : String) (line : Line) : LogEngine :=
  { s with published := Function.update s.published name (s.published name ++ [line]) }

def store (s : LogEngine) (name : String) (list : List LogParameter) : LogEngine :=
  { s with logData := Function.update s.logData name (some list) }

@[simp] theorem store_self (s : LogEngine) (name : String) (list : List LogParameter) :
    (store s name list).logData name = some list :=
  Function.update_self _ _ _

theorem store_other {name name' : String} (h : name' ≠ name) (s : LogEngine)
    (list : List LogParameter) : (store s name list).logData name' = s.logData name' :=
  Function.update_of_ne h _ _

theorem publish_other {name name' : String} (h : name' ≠ name) (s : LogEngine) (line : Line) :
    (publish s name line).published name' = s.published name' :=
  Function.update_of_ne h _ _

/-- `none` stands for `front` of an empty list, which is undefined. -/
def onLogParameterReceived (s : LogEngine) (p : LogParameter) : Option LogEngine :=
  if p.logType = LOG_NEVER then some s
  else if p.logType = LOG_EVERY then
    let s := publish s p.name (.value p.value)
    match s.logData p.name with
    | none => some s
    | some [] => none
    | some (front :: rest) =>
      let logType := front.logType
      let list := if logType ≠ LOG_AVERAGE then [] else front :: rest
      some (store s p.name (list ++ [⟨p.name, p.value, false, logType⟩]))
  else
    some (store s p.name ((s.logData p.name).getD [] ++ [p.setUpdatedRecently true]))

/-- The lines that `update` writes for a name. -/
def updateLines (s : LogEngine) (name : String) : List Line :=
  match s.logData name with
  | none => []
  | some list => (updateList s.onceLogFlag list).1

def update (s : LogEngine) : LogEngine where
  logData name := (s.logData name).bind fun list => (updateList s.onceLogFlag list).2
  onceLogFlag := false
  published name := s.published name ++ updateLines s name

def onOnceLogTrigger (s : LogEngine) : LogEngine := { s with onceLogFlag := true }

inductive Event where
  | received (p : LogParameter)
  | update
  | onceTrigger
  deriving DecidableEq, Repr

def step (s : LogEngine) : Event → Option LogEngine
  | .received p => onLogParameterReceived s p
  | .update => some (update s)
  | .onceTrigger => some (onOnceLogTrigger s)

abbrev run (s : LogEngine) (es : List Event) : Option LogEngine := Machine.run step s es

/-! ## Histories -/

def isUpdate : Event → Bool
  | .update => true
  | .received _ => false
  | .onceTrigger => false

/-- The events after the last update. -/
def sinceUpdate (es : List Event) : List Event := es.rtakeWhile fun e => !isUpdate e

/-- The events up to the last update. -/
def upToUpdate (es : List Event) : List Event := es.rdropWhile fun e => !isUpdate e

/-- The values received under a name. -/
def value? (name : String) : Event → Option Text
  | .received p => if p.name = name then some p.value else none
  | .update => none
  | .onceTrigger => none

def values (name : String) (es : List Event) : List Text := es.filterMap (value? name)

/-- All parameters of the name are of one type. -/
def OnlyType (logType : Int) (name : String) (es : List Event) : Prop :=
  ∀ p, Event.received p ∈ es → p.name = name → p.logType = logType

@[simp] theorem sinceUpdate_update (es : List Event) : sinceUpdate (es ++ [.update]) = [] :=
  List.rtakeWhile_concat_neg _ _ _ (by simp [isUpdate])

@[simp] theorem upToUpdate_update (es : List Event) :
    upToUpdate (es ++ [.update]) = es ++ [.update] :=
  List.rdropWhile_concat_neg _ _ _ (by simp [isUpdate])

theorem sinceUpdate_other {e : Event} (h : isUpdate e = false) (es : List Event) :
    sinceUpdate (es ++ [e]) = sinceUpdate es ++ [e] :=
  List.rtakeWhile_concat_pos _ _ _ (by simp [h])

theorem upToUpdate_other {e : Event} (h : isUpdate e = false) (es : List Event) :
    upToUpdate (es ++ [e]) = upToUpdate es :=
  List.rdropWhile_concat_pos _ _ _ (by simp [h])

theorem upToUpdate_append (es : List Event) : upToUpdate es ++ sinceUpdate es = es :=
  List.rdropWhile_append_rtakeWhile

@[simp] theorem values_append (name : String) (es es' : List Event) :
    values name (es ++ es') = values name es ++ values name es' :=
  List.filterMap_append

@[simp] theorem values_update (name : String) : values name [.update] = [] := rfl

@[simp] theorem values_onceTrigger (name : String) : values name [.onceTrigger] = [] := rfl

theorem values_received (p : LogParameter) : values p.name [.received p] = [p.value] := by
  simp [values, value?]

theorem values_other {p : LogParameter} {name : String} (h : p.name ≠ name) :
    values name [.received p] = [] := by
  simp [values, value?, h]

theorem values_silent {name : String} {e : Event} (h : values name [e] = []) (es : List Event) :
    values name (es ++ [e]) = values name es := by
  rw [values_append, h, List.append_nil]

theorem OnlyType.before {logType : Int} {name : String} {es es' : List Event}
    (h : OnlyType logType name (es ++ es')) : OnlyType logType name es :=
  fun p hp => h p (List.mem_append_left _ hp)

/-! ## What a step does to one name -/

/-- A parameter leaves the flag and every other name alone. -/
theorem received_frame {s s' : LogEngine} {p : LogParameter}
    (h : onLogParameterReceived s p = some s') :
    s'.onceLogFlag = s.onceLogFlag ∧ ∀ name, name ≠ p.name →
      s'.logData name = s.logData name ∧ s'.published name = s.published name := by
  rw [onLogParameterReceived] at h
  split at h
  · obtain rfl := Option.some.inj h
    exact ⟨rfl, fun _ _ => ⟨rfl, rfl⟩⟩
  split at h
  · simp only [publish] at h
    split at h
    · obtain rfl := Option.some.inj h
      exact ⟨rfl, fun _ hne => ⟨rfl, publish_other hne _ _⟩⟩
    · cases h
    · obtain rfl := Option.some.inj h
      exact ⟨rfl, fun _ hne => ⟨store_other hne _ _, publish_other hne _ _⟩⟩
  · obtain rfl := Option.some.inj h
    exact ⟨rfl, fun _ hne => ⟨store_other hne _ _, rfl⟩⟩

/-- A parameter that is neither `LOG_NEVER` nor `LOG_EVERY` is put behind its list. -/
theorem received_stored {s : LogEngine} {p : LogParameter} (hnever : p.logType ≠ LOG_NEVER)
    (hevery : p.logType ≠ LOG_EVERY) :
    onLogParameterReceived s p =
      some (store s p.name ((s.logData p.name).getD [] ++ [p.setUpdatedRecently true])) := by
  rw [onLogParameterReceived, if_neg hnever, if_neg hevery]

theorem types_concat {logType : Int} {list : List LogParameter} {p : LogParameter}
    (h : ∀ q ∈ list, q.logType = logType) (hp : p.logType = logType) :
    ∀ q ∈ list ++ [p.setUpdatedRecently true], q.logType = logType := by
  intro q hq
  rcases List.mem_append.mp hq with hold | hnew
  · exact h q hold
  · rw [List.mem_singleton.mp hnew]
    exact hp

/-- The types whose parameters are only put behind their list. -/
def Buffered (logType : Int) : Prop := logType ≠ LOG_NEVER ∧ logType ≠ LOG_EVERY

instance (logType : Int) : Decidable (Buffered logType) := inferInstanceAs (Decidable (_ ∧ _))

/-- What an event does to a name all of whose parameters are of one such type: it brings a
parameter, it does not concern the name, or it is an update. -/
theorem OnlyType.step_cases {logType : Int} {name : String} {es : List Event} {s s' : LogEngine}
    {e : Event} (honly : OnlyType logType name (es ++ [e])) (hbuffered : Buffered logType)
    (hstep : step s e = some s') :
    (∃ p, e = .received p ∧ p.name = name ∧ p.logType = logType ∧
      s'.logData name = some ((s.logData name).getD [] ++ [p.setUpdatedRecently true]) ∧
      s'.published name = s.published name) ∨
    (isUpdate e = false ∧ values name [e] = [] ∧ s'.logData name = s.logData name ∧
      s'.published name = s.published name) ∨
    (e = .update ∧ s' = update s) := by
  cases e with
  | received p =>
    by_cases hname : p.name = name
    · subst hname
      have htype : p.logType = logType := honly p (by simp) rfl
      rw [step, received_stored (htype ▸ hbuffered.1) (htype ▸ hbuffered.2)] at hstep
      rw [← Option.some.inj hstep]
      exact Or.inl ⟨p, rfl, rfl, htype, store_self _ _ _, rfl⟩
    · obtain ⟨hdata, hpublished⟩ := (received_frame hstep).2 name (Ne.symm hname)
      exact Or.inr (Or.inl ⟨rfl, values_other hname, hdata, hpublished⟩)
  | update => exact Or.inr (Or.inr ⟨rfl, (Option.some.inj hstep).symm⟩)
  | onceTrigger =>
    rw [← Option.some.inj hstep]
    exact Or.inr (Or.inl ⟨rfl, values_onceTrigger name, rfl, rfl⟩)

/-! ## No list is empty -/

def NonEmpty (s : LogEngine) : Prop := ∀ name list, s.logData name = some list → list ≠ []

theorem nonEmpty_store {s : LogEngine} (h : NonEmpty s) (name : String) {list : List LogParameter}
    (hlist : list ≠ []) : NonEmpty (store s name list) := by
  intro name' list' hget
  by_cases hname : name' = name
  · subst hname
    rw [store_self] at hget
    rw [← Option.some.inj hget]
    exact hlist
  · rw [store_other hname] at hget
    exact h name' list' hget

theorem updateList_nonEmpty {flag : Bool} {list list' : List LogParameter} (h : list ≠ [])
    (hkept : (updateList flag list).2 = some list') : list' ≠ [] := by
  obtain ⟨front, rest, rfl⟩ := List.exists_cons_of_ne_nil h
  simp only [updateList] at hkept
  split at hkept
  · cases hkept
  split at hkept
  · cases hkept
  split at hkept
  · have hlen : (keepLast 2 (front :: rest)).length ≠ 0 := by
      simp [keepLast]
      omega
    obtain ⟨front', rest', hcons⟩ :=
      List.exists_cons_of_ne_nil (List.length_pos_iff.mp (Nat.pos_of_ne_zero hlen))
    rw [hcons] at hkept
    rw [← Option.some.inj hkept]
    exact List.cons_ne_nil _ _
  split at hkept
  · rw [← Option.some.inj hkept, updateOnChange]
    split
    · exact List.cons_ne_nil _ _
    · split <;> exact List.cons_ne_nil _ _
  · rw [← Option.some.inj hkept]
    exact List.cons_ne_nil _ _

/-- **Every step is defined and leaves no list empty.** -/
theorem step_nonEmpty {s : LogEngine} (h : NonEmpty s) (e : Event) :
    ∃ s', step s e = some s' ∧ NonEmpty s' := by
  cases e with
  | received p =>
    rw [step, onLogParameterReceived]
    split
    · exact ⟨s, rfl, h⟩
    split
    · have hpublish : NonEmpty (publish s p.name (.value p.value)) := h
      simp only
      split
      · exact ⟨_, rfl, hpublish⟩
      case h_2 hempty => exact absurd rfl (hpublish p.name [] hempty)
      · exact ⟨_, rfl, nonEmpty_store hpublish _ (by simp)⟩
    · exact ⟨_, rfl, nonEmpty_store h _ (by simp)⟩
  | update =>
    refine ⟨update s, rfl, ?_⟩
    intro name list hget
    obtain ⟨old, hold, hkept⟩ := Option.bind_eq_some_iff.mp hget
    exact updateList_nonEmpty (h name old hold) hkept
  | onceTrigger => exact ⟨onOnceLogTrigger s, rfl, h⟩

theorem run_nonEmpty {s : LogEngine} (h : NonEmpty s) (es : List Event) :
    ∃ s', run s es = some s' ∧ NonEmpty s' := by
  induction es generalizing s with
  | nil => exact ⟨s, rfl, h⟩
  | cons e es ih =>
    obtain ⟨s₁, hstep, hne⟩ := step_nonEmpty h e
    obtain ⟨s', hrun, hne'⟩ := ih hne
    exact ⟨s', Machine.run_cons_some.mpr ⟨s₁, hstep, hrun⟩, hne'⟩

theorem nonEmpty_start : NonEmpty {} := by
  intro name list hget
  cases hget

/-! ## The flag -/

/-- The flag is up from the start or a trigger to the next update. -/
theorem flag_of_run {es : List Event} {s : LogEngine} (h : run {} es = some s) :
    s.onceLogFlag = true ↔ .onceTrigger ∈ sinceUpdate es ∨ upToUpdate es = [] := by
  refine Machine.run_history (I := fun es s => s.onceLogFlag = true ↔
    .onceTrigger ∈ sinceUpdate es ∨ upToUpdate es = []) ?_ (by simp [upToUpdate]) h
  intro es s e s' hi hstep
  cases e with
  | received p =>
    rw [(received_frame hstep).1, hi, sinceUpdate_other rfl, upToUpdate_other rfl]
    simp
  | update =>
    obtain rfl := Option.some.inj hstep
    simp [update]
  | onceTrigger =>
    obtain rfl := Option.some.inj hstep
    rw [sinceUpdate_other rfl]
    simp [onOnceLogTrigger]

end MuonDetector.Components.Logging
