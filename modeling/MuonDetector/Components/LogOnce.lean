import MuonDetector.Components.Logging

/-!
# Values that are logged once

The flag of the first parameter of a list is up until the first update after it, and
no parameter that is pushed or trimmed later brings it back. From then on only the
flag of the engine lets the list be logged.
-/

namespace MuonDetector.Components.LogOnce

open MuonDetector.Library MuonDetector.Components.Logging

/-- The list of a name that has received the values of `es`, all of them to be logged once. -/
inductive OnceList (name : String) (es : List Event) : Option (List LogParameter) → Prop
  | absent (h : values name es = []) : OnceList name es none
  | present {front rest} (types : ∀ p ∈ front :: rest, p.logType = LOG_ONCE)
      (latest : (values name es).getLast? = some (back front rest).value)
      (fresh : front.updated = true ↔ values name (upToUpdate es) = []) :
      OnceList name es (some (front :: rest))

theorem OnceList.received {es : List Event} {list : Option (List LogParameter)}
    {p : LogParameter} (h : OnceList p.name es list) (htype : p.logType = LOG_ONCE) :
    OnceList p.name (es ++ [.received p])
      (some (list.getD [] ++ [p.setUpdatedRecently true])) := by
  have hlast : (values p.name (es ++ [.received p])).getLast? = some p.value := by
    rw [values_append, values_received, List.getLast?_concat]
  cases h with
  | absent hnone =>
    refine @OnceList.present _ _ _ [] (by simpa [LogParameter.setUpdatedRecently] using htype)
      hlast ?_
    have hbefore : values p.name (upToUpdate es) = [] := by
      have hsplit := congrArg (values p.name) (upToUpdate_append es)
      rw [values_append, hnone] at hsplit
      exact (List.append_eq_nil_iff.mp hsplit).1
    rw [upToUpdate_other rfl, hbefore]
    simp [LogParameter.setUpdatedRecently]
  | @present front rest types latest fresh =>
    refine @OnceList.present _ _ front (rest ++ [p.setUpdatedRecently true]) ?_ ?_ ?_
    · exact types_concat types htype
    · rw [hlast, back_concat]
      rfl
    · rw [upToUpdate_other rfl]
      exact fresh

/-- An event that is no update and brings no value of the name changes nothing. -/
theorem OnceList.other {name : String} {es : List Event} {list : Option (List LogParameter)}
    {e : Event} (h : OnceList name es list) (hno : isUpdate e = false)
    (hvalues : values name [e] = []) : OnceList name (es ++ [e]) list := by
  have hsame := values_silent hvalues es
  cases h with
  | absent hnone => exact .absent (hsame.trans hnone)
  | present types latest fresh =>
    exact .present types (by rw [hsame, latest]) (by rw [upToUpdate_other hno, fresh])

/-- Trimming keeps the last parameter, and the front is not fresh any more. -/
theorem trimmed (front : LogParameter) (rest : List LogParameter) :
    ∃ front' rest', clearFront (keepLast 2 (front :: rest)) = front' :: rest' ∧
      front'.updated = false ∧ (back front' rest').value = (back front rest).value ∧
      ∀ p ∈ front' :: rest', ∃ q ∈ front :: rest, p.logType = q.logType := by
  rcases List.eq_nil_or_concat rest with rfl | ⟨init, last, rfl⟩
  · exact ⟨front.setUpdatedRecently false, [], rfl, rfl, rfl, fun p hp =>
      ⟨front, by simp, by rw [List.mem_singleton.mp hp]; rfl⟩⟩
  · rw [List.concat_eq_append]
    rcases List.eq_nil_or_concat (front :: init) with hnil | ⟨init', x, hinit⟩
    · cases hnil
    · have hlist : front :: (init ++ [last]) = init' ++ [x, last] := by
        rw [← List.cons_append, hinit]
        simp
      have hkeep : keepLast 2 (front :: (init ++ [last])) = [x, last] := by
        rw [hlist, keepLast]
        simp
      refine ⟨x.setUpdatedRecently false, [last], by rw [hkeep]; rfl, rfl, ?_, ?_⟩
      · rw [back_concat]
        rfl
      · intro p hp
        rw [hlist]
        simp only [List.mem_cons, List.not_mem_nil, or_false] at hp
        rcases hp with rfl | rfl
        · exact ⟨x, by simp, rfl⟩
        · exact ⟨p, by simp, rfl⟩

theorem updateList_once {flag : Bool} {front : LogParameter} {rest : List LogParameter}
    (h : ∀ p ∈ front :: rest, p.logType = LOG_ONCE) :
    updateList flag (front :: rest) =
      (if flag || front.updated then [.value (back front rest).value] else [],
        some (clearFront (keepLast 2 (front :: rest)))) := by
  have htype := h _ (back_mem front rest)
  simp only [updateList, htype]
  rfl

theorem OnceList.updated {name : String} {es : List Event} {list : Option (List LogParameter)}
    (h : OnceList name es list) (flag : Bool) :
    OnceList name (es ++ [.update]) (list.bind fun l => (updateList flag l).2) := by
  have hsame := values_silent (values_update name) es
  cases h with
  | absent hnone => exact .absent (hsame.trans hnone)
  | @present front rest types latest fresh =>
    obtain ⟨front', rest', htrim, hclear, hback, htypes⟩ := trimmed front rest
    rw [Option.bind_some, updateList_once types, htrim]
    refine .present ?_ ?_ ?_
    · intro p hp
      obtain ⟨q, hq, heq⟩ := htypes p hp
      exact heq.trans (types q hq)
    · rw [hsame, latest, hback]
    · have hne : values name es ≠ [] := by
        intro hnil
        simp [hnil] at latest
      rw [upToUpdate_update, hsame, hclear]
      simp [hne]

/-- One event keeps the form of the list. -/
theorem OnceList.step {name : String} {es : List Event} {s s' : LogEngine} {e : Event}
    (h : OnceList name es (s.logData name)) (hstep : Logging.step s e = some s')
    (honly : OnlyType LOG_ONCE name (es ++ [e])) : OnceList name (es ++ [e]) (s'.logData name) := by
  rcases honly.step_cases (by decide) hstep with
    ⟨p, rfl, rfl, htype, hdata, -⟩ | ⟨hno, hvalues, hdata, -⟩ | ⟨rfl, rfl⟩
  · rw [hdata]
    exact h.received htype
  · rw [hdata]
    exact h.other hno hvalues
  · exact h.updated s.onceLogFlag

theorem onceList_run {name : String} {es : List Event} {s : LogEngine} (h : run {} es = some s)
    (honly : OnlyType LOG_ONCE name es) : OnceList name es (s.logData name) := by
  refine Machine.run_history
    (I := fun es s => OnlyType LOG_ONCE name es → OnceList name es (s.logData name)) ?_
    (fun _ => .absent rfl) h honly
  intro es s e s' hi hstep honly
  exact (hi honly.before).step hstep honly

/-! ## When a value is logged -/

/-- The next update is the first after the first value, or the first after a trigger. -/
def Due (name : String) (es : List Event) : Prop :=
  values name (upToUpdate es) = [] ∨ .onceTrigger ∈ sinceUpdate es

instance (name : String) (es : List Event) : Decidable (Due name es) :=
  inferInstanceAs (Decidable (_ ∨ _))

/-- The lines of an update after the events `es`: the latest value, if it is due. -/
def onceLines (name : String) (es : List Event) : List Line :=
  if Due name es then (values name es).getLast?.toList.map .value else []

/-- An event publishes for the name what is due at an update, and nothing otherwise. -/
structure OnceLaw (name : String) (es : List Event) (s : LogEngine) : Prop where
  atUpdate : (update s).published name = s.published name ++ onceLines name es
  otherwise : ∀ e s', isUpdate e = false → OnlyType LOG_ONCE name (es ++ [e]) →
    Logging.step s e = some s' → s'.published name = s.published name

theorem updateLines_once {name : String} {es : List Event} {s : LogEngine}
    (h : run {} es = some s) (honly : OnlyType LOG_ONCE name es) :
    updateLines s name = onceLines name es := by
  have hlist := onceList_run h honly
  have hflag := flag_of_run h
  rw [updateLines]
  generalize s.logData name = list at hlist ⊢
  cases hlist with
  | absent hnone => simp [onceLines, hnone]
  | @present front rest types latest fresh =>
    simp only [updateList_once types, onceLines, latest, Option.toList_some, List.map_cons,
      List.map_nil]
    have hdue : (s.onceLogFlag || front.updated) = true ↔ Due name es := by
      rw [Bool.or_eq_true, hflag, fresh, Due]
      constructor
      · rintro ((htrigger | hnone) | hfresh)
        · exact Or.inr htrigger
        · exact Or.inl (by rw [hnone]; rfl)
        · exact Or.inl hfresh
      · rintro (hfresh | htrigger)
        · exact Or.inr hfresh
        · exact Or.inl (Or.inl htrigger)
    by_cases hd : Due name es
    · rw [if_pos hd, if_pos (hdue.mpr hd)]
    · rw [if_neg hd, if_neg (fun hb => hd (hdue.mp hb))]

theorem onceLaw {name : String} {es : List Event} {s : LogEngine} (h : run {} es = some s)
    (honly : OnlyType LOG_ONCE name es) : OnceLaw name es s where
  atUpdate := congrArg (s.published name ++ ·) (updateLines_once h honly)
  otherwise e s' he honly' hstep := by
    rcases honly'.step_cases (by decide) hstep with
      ⟨p, -, -, -, -, hpublished⟩ | ⟨-, -, -, hpublished⟩ | ⟨rfl, -⟩
    · exact hpublished
    · exact hpublished
    · cases he

/-- **Every run is defined and leaves no list empty, and a name whose parameters are to be
logged once is logged at the first update after the first of them and then at the first
update after each trigger, with its latest value.** -/
theorem log_once (es : List Event) : ∃ s, run {} es = some s ∧ NonEmpty s ∧
    ∀ name, OnlyType LOG_ONCE name es → OnceLaw name es s := by
  obtain ⟨s, hrun, hne⟩ := run_nonEmpty nonEmpty_start es
  exact ⟨s, hrun, hne, fun name honly => onceLaw hrun honly⟩

/-- Two values before the first update, a third one, and a trigger. -/
example : (run {} [.received ⟨"hw", ['1'], false, LOG_ONCE⟩,
    .received ⟨"hw", ['2'], false, LOG_ONCE⟩, .update, .received ⟨"hw", ['3'], false, LOG_ONCE⟩,
    .update, .onceTrigger, .update]).map (fun s => s.published "hw") =
      some [.value ['2'], .value ['3']] := by
  decide +kernel

end MuonDetector.Components.LogOnce
