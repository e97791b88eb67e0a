import MuonDetector.Components.Logging

/-!
# Values that are logged on a change

The first parameter of a list is the reference, and the others came in since the last
update. The update compares from the front and keeps the front only. A reference that
does not have the value received last is compared with the next ones all the same.
-/

namespace MuonDetector.Components.LogOnChange

open MuonDetector.Library MuonDetector.Components.Logging

/-- What the list of a name and its lines are after the events `es`. -/
inductive ChangeList (name : String) (es : List Event) :
    Option (List LogParameter) → List Line → Prop
  | absent (nothing : values name es = []) : ChangeList name es none []
  | fresh {front rest} (types : ∀ p ∈ front :: rest, p.logType = LOG_ON_CHANGE)
      (updated : front.updated = true)
      (texts : (front :: rest).map (·.value) = values name (sinceUpdate es)) :
      ChangeList name es (some (front :: rest)) []
  | settled {front rest lines} (types : ∀ p ∈ front :: rest, p.logType = LOG_ON_CHANGE)
      (updated : front.updated = false)
      (texts : rest.map (·.value) = values name (sinceUpdate es))
      (kept : (values name (upToUpdate es)).getLast? = some front.value)
      (published : lines.getLast? = some (.value front.value)) :
      ChangeList name es (some (front :: rest)) lines

theorem values_split (name : String) (es : List Event) :
    values name es = values name (upToUpdate es) ++ values name (sinceUpdate es) := by
  rw [← values_append, upToUpdate_append]

theorem back_value (front : LogParameter) (rest : List LogParameter) :
    (front.value :: rest.map (·.value)).getLast? = some (back front rest).value := by
  rcases List.eq_nil_or_concat rest with rfl | ⟨init, p, rfl⟩
  · rfl
  · rw [List.concat_eq_append, back_concat, List.map_append, ← List.cons_append]
    exact List.getLast?_concat

/-- The last value of the list is the one received last. -/
theorem ChangeList.latest {name : String} {es : List Event} {front : LogParameter}
    {rest : List LogParameter} {lines : List Line}
    (h : ChangeList name es (some (front :: rest)) lines) :
    (values name es).getLast? = some (back front rest).value := by
  rw [values_split]
  cases h with
  | fresh _ _ texts =>
    rw [← texts, List.map_cons, List.getLast?_append, back_value]
    rfl
  | settled _ _ texts kept _ =>
    rw [← texts, ← back_value, List.getLast?_append, kept, List.getLast?_cons]
    cases (rest.map (·.value)).getLast? <;> rfl

theorem ChangeList.types {name : String} {es : List Event} {list : List LogParameter}
    {lines : List Line} (h : ChangeList name es (some list) lines) :
    ∀ p ∈ list, p.logType = LOG_ON_CHANGE := by
  cases h with
  | fresh types _ _ => exact types
  | settled types _ _ _ _ => exact types

theorem ChangeList.cons {name : String} {es : List Event} {list : List LogParameter}
    {lines : List Line} (h : ChangeList name es (some list) lines) :
    ∃ front rest, list = front :: rest := by
  cases h with
  | fresh => exact ⟨_, _, rfl⟩
  | settled => exact ⟨_, _, rfl⟩

theorem ChangeList.received {es : List Event} {list : Option (List LogParameter)}
    {lines : List Line} {p : LogParameter} (h : ChangeList p.name es list lines)
    (htype : p.logType = LOG_ON_CHANGE) :
    ChangeList p.name (es ++ [.received p])
      (some (list.getD [] ++ [p.setUpdatedRecently true])) lines := by
  have hsince : values p.name (sinceUpdate (es ++ [.received p])) =
      values p.name (sinceUpdate es) ++ [p.value] := by
    rw [sinceUpdate_other rfl, values_append, values_received]
  cases h with
  | absent hnone =>
    rw [values_split] at hnone
    refine @ChangeList.fresh _ _ _ [] (@types_concat _ [] p (by simp) htype) rfl ?_
    rw [hsince, (List.append_eq_nil_iff.mp hnone).2]
    rfl
  | @fresh front rest types updated texts =>
    refine .fresh (types_concat types htype) updated ?_
    show ((front :: rest) ++ [p.setUpdatedRecently true]).map (·.value) = _
    rw [hsince, ← texts, List.map_append]
    rfl
  | @settled front rest lines types updated texts kept published =>
    refine .settled (types_concat types htype) updated ?_ ?_ published
    · show (rest ++ [p.setUpdatedRecently true]).map (·.value) = _
      rw [hsince, ← texts, List.map_append]
      rfl
    · rw [upToUpdate_other rfl, kept]

/-- An event that is no update and brings no value of the name changes nothing. -/
theorem ChangeList.other {name : String} {es : List Event} {list : Option (List LogParameter)}
    {lines : List Line} {e : Event} (h : ChangeList name es list lines)
    (hno : isUpdate e = false) (hvalues : values name [e] = []) :
    ChangeList name (es ++ [e]) list lines := by
  have hsince : values name (sinceUpdate (es ++ [e])) = values name (sinceUpdate es) := by
    rw [sinceUpdate_other hno, values_append, hvalues, List.append_nil]
  cases h with
  | absent hnone => exact .absent ((values_silent hvalues es).trans hnone)
  | fresh types updated texts => exact .fresh types updated (by rw [hsince, texts])
  | settled types updated texts kept published =>
    exact .settled types updated (by rw [hsince, texts]) (by rw [upToUpdate_other hno, kept])
      published

/-! ## The condition -/

/-- The first and the last value are equal where the list is logged unconditionally, and
otherwise the first value that differs from the reference is the last one. -/
def KeepsReference (flag : Bool) : List LogParameter → Prop
  | [] => True
  | front :: rest =>
    if flag || front.updated then (back front rest).value = front.value
    else ∀ p ∈ rest.find? (fun p => p.value ≠ front.value), (back front rest).value = p.value

instance (flag : Bool) : DecidablePred (KeepsReference flag)
  | [] => inferInstanceAs (Decidable True)
  | front :: rest => by
    unfold KeepsReference
    infer_instance

/-- Every update keeps the reference of the name. -/
def Keeps (name : String) (s : LogEngine) (e : Event) : Prop :=
  e = .update → KeepsReference s.onceLogFlag ((s.logData name).getD [])

instance (name : String) (s : LogEngine) (e : Event) : Decidable (Keeps name s e) :=
  inferInstanceAs (Decidable (_ → _))

theorem updateList_onChange {front : LogParameter} {rest : List LogParameter}
    (h : ∀ p ∈ front :: rest, p.logType = LOG_ON_CHANGE) (flag : Bool) :
    updateList flag (front :: rest) =
      ((updateOnChange flag front rest).1, some (updateOnChange flag front rest).2) := by
  have htype := h _ (back_mem front rest)
  simp only [updateList, htype]
  rfl

theorem find?_none_back {front : LogParameter} {rest : List LogParameter}
    (h : rest.find? (fun p => p.value ≠ front.value) = none) :
    (back front rest).value = front.value := by
  rcases List.mem_cons.mp (back_mem front rest) with hfront | hrest
  · rw [hfront]
  · simpa using List.find?_eq_none.mp h _ hrest

/-- An update that keeps the reference leaves the one parameter that it has just logged, or
that it need not log. -/
theorem updateOnChange_keeps {flag : Bool} {front : LogParameter} {rest : List LogParameter}
    (h : KeepsReference flag (front :: rest)) (htypes : ∀ p ∈ front :: rest,
      p.logType = LOG_ON_CHANGE) :
    ∃ p, (updateOnChange flag front rest).2 = [p] ∧ p.logType = LOG_ON_CHANGE ∧
      p.updated = false ∧ p.value = (back front rest).value ∧
      ((updateOnChange flag front rest).1 = [.value p.value] ∨
        (updateOnChange flag front rest).1 = [] ∧ front.updated = false ∧
          p.value = front.value) := by
  rw [updateOnChange]
  rw [KeepsReference] at h
  split
  · next hlog =>
    rw [if_pos hlog] at h
    exact ⟨front.setUpdatedRecently false, rfl, htypes front (by simp), rfl, h.symm,
      Or.inl (by rw [h]; rfl)⟩
  · next hlog =>
    rw [if_neg hlog] at h
    have hupdated : front.updated = false := by
      rw [Bool.or_eq_true, not_or, Bool.not_eq_true, Bool.not_eq_true] at hlog
      exact hlog.2
    cases hfind : rest.find? (fun p => p.value ≠ front.value) with
    | some p =>
      have hmem : p ∈ front :: rest := List.mem_cons_of_mem _ (List.mem_of_find?_eq_some hfind)
      exact ⟨p.setUpdatedRecently false, rfl, htypes p hmem, rfl, (h p hfind).symm, Or.inl rfl⟩
    | none =>
      exact ⟨front.setUpdatedRecently false, rfl, htypes front (by simp), rfl,
        (find?_none_back hfind).symm, Or.inr ⟨rfl, hupdated, rfl⟩⟩

theorem ChangeList.updated {name : String} {es : List Event} {s : LogEngine}
    (h : ChangeList name es (s.logData name) (s.published name))
    (hkeeps : KeepsReference s.onceLogFlag ((s.logData name).getD [])) :
    ChangeList name (es ++ [.update]) ((update s).logData name) ((update s).published name) := by
  have hsame := values_silent (values_update name) es
  simp only [update, updateLines]
  generalize hlist : s.logData name = list at h hkeeps ⊢
  generalize hlines : s.published name = lines at h ⊢
  cases list with
  | none =>
    cases h with
    | absent hnone => exact .absent (hsame.trans hnone)
  | some list =>
    obtain ⟨front, rest, rfl⟩ := h.cons
    obtain ⟨p, hkept, htype, hflag, hvalue, hout⟩ := updateOnChange_keeps hkeeps h.types
    simp only [Option.bind_some, updateList_onChange h.types, hkept]
    refine .settled (by simpa using htype) hflag (by rw [sinceUpdate_update]; rfl) ?_ ?_
    · rw [upToUpdate_update, hsame, h.latest, hvalue]
    · rcases hout with hline | ⟨hline, hold, hfront⟩
      · rw [hline, List.getLast?_concat]
      · rw [hline, List.append_nil, hfront]
        cases h with
        | fresh _ updated _ => rw [updated] at hold; cases hold
        | settled _ _ _ _ published => exact published

/-- One event that keeps the reference keeps the form of the list. -/
theorem ChangeList.step {name : String} {es : List Event} {s s' : LogEngine} {e : Event}
    (h : ChangeList name es (s.logData name) (s.published name)) (hkeeps : Keeps name s e)
    (hstep : Logging.step s e = some s') (honly : OnlyType LOG_ON_CHANGE name (es ++ [e])) :
    ChangeList name (es ++ [e]) (s'.logData name) (s'.published name) := by
  rcases honly.step_cases (by decide) hstep with
    ⟨p, rfl, rfl, htype, hdata, hpublished⟩ | ⟨hno, hvalues, hdata, hpublished⟩ | ⟨rfl, rfl⟩
  · rw [hdata, hpublished]
    exact h.received htype
  · rw [hdata, hpublished]
    exact h.other hno hvalues
  · exact h.updated (hkeeps rfl)

theorem changeList_run {name : String} {es : List Event} {s : LogEngine} (h : run {} es = some s)
    (honly : OnlyType LOG_ON_CHANGE name es) (hmeets : Machine.Meets step (Keeps name) {} es) :
    ChangeList name es (s.logData name) (s.published name) := by
  refine Machine.run_history_of_meets (I := fun es s => OnlyType LOG_ON_CHANGE name es →
    ChangeList name es (s.logData name) (s.published name)) ?_ (fun _ => .absent rfl) hmeets h honly
  intro es s e s' hi hkeeps hstep honly
  exact (hi honly.before).step hkeeps hstep honly

/-! ## What an update publishes -/

/-- After an update the line published last has the value received last, and an update without
a trigger and without another value since the one before publishes nothing. -/
structure ChangeLaw (name : String) (es : List Event) (s : LogEngine) : Prop where
  latest : ∀ v, (values name es).getLast? = some v →
    ((update s).published name).getLast? = some (.value v)
  quiet : .onceTrigger ∉ sinceUpdate es →
    (∀ v ∈ values name (sinceUpdate es), (s.published name).getLast? = some (.value v)) →
    (update s).published name = s.published name

theorem ChangeList.law_latest {name : String} {es : List Event} {s : LogEngine}
    (h : ChangeList name es (s.logData name) (s.published name))
    (hkeeps : KeepsReference s.onceLogFlag ((s.logData name).getD [])) {v : Text}
    (hv : (values name es).getLast? = some v) :
    ((update s).published name).getLast? = some (.value v) := by
  have hafter := h.updated hkeeps
  have hsame := values_silent (values_update name) es
  generalize (update s).logData name = list at hafter
  generalize (update s).published name = lines at hafter ⊢
  cases hafter with
  | absent hnone =>
    rw [hsame] at hnone
    simp [hnone] at hv
  | fresh _ _ texts =>
    rw [sinceUpdate_update] at texts
    cases texts
  | settled _ _ _ kept published =>
    rw [upToUpdate_update, hsame, hv] at kept
    rw [published, Option.some.inj kept]

/-- The flags are down where the name has been logged and there was no trigger. -/
theorem flag_down {name : String} {es : List Event} {s : LogEngine} {v : Text}
    (h : run {} es = some s) (hkept : (values name (upToUpdate es)).getLast? = some v)
    (hno : .onceTrigger ∉ sinceUpdate es) : s.onceLogFlag = false := by
  rw [← Bool.not_eq_true, flag_of_run h]
  rintro (htrigger | hnone)
  · exact hno htrigger
  · rw [hnone] at hkept
    cases hkept

theorem ChangeList.law_quiet {name : String} {es : List Event} {s : LogEngine}
    (h : ChangeList name es (s.logData name) (s.published name)) (hrun : run {} es = some s)
    (hno : .onceTrigger ∉ sinceUpdate es)
    (hsame : ∀ v ∈ values name (sinceUpdate es),
      (s.published name).getLast? = some (.value v)) :
    (update s).published name = s.published name := by
  simp only [update, updateLines]
  generalize s.logData name = list at h ⊢
  generalize s.published name = lines at h hsame ⊢
  cases h with
  | absent hnone => exact List.append_nil _
  | @fresh front rest types updated texts =>
    have hfirst := hsame front.value (by simp [← texts])
    cases hfirst
  | @settled front rest lines types updated texts kept published =>
    have hflag := flag_down hrun kept hno
    have hfind : rest.find? (fun p => p.value ≠ front.value) = none := by
      rw [List.find?_eq_none]
      intro p hp
      have hlast := hsame p.value (by rw [← texts]; exact List.mem_map_of_mem hp)
      rw [published] at hlast
      simpa using (Line.value.inj (Option.some.inj hlast)).symm
    have hnothing : updateOnChange false front rest = ([], [front.setUpdatedRecently false]) := by
      rw [updateOnChange, updated, hfind]
      rfl
    simp only [updateList_onChange types, hflag, hnothing, List.append_nil]

/-- **In a run whose updates keep the reference every update leaves the value received last
published, and publishes nothing when no trigger and no other value has come.** -/
theorem on_change_tracks {name : String} {es : List Event} (honly : OnlyType LOG_ON_CHANGE name es)
    (hmeets : Machine.Meets step (Keeps name) {} es) :
    ∀ pre post s, es = pre ++ .update :: post → run {} pre = some s → ChangeLaw name pre s := by
  rintro pre post s rfl hrun
  obtain ⟨hpre, hkeeps, -⟩ := (Machine.meets_append hrun).mp hmeets
  have hlist := changeList_run hrun honly.before hpre
  exact ⟨fun v => hlist.law_latest (hkeeps rfl), hlist.law_quiet hrun⟩

def changed (value : Text) : Event := .received ⟨"level", value, false, LOG_ON_CHANGE⟩

theorem on_change_tracks_level :
    let es := [changed ['1'], .update, changed ['1'], changed ['2'], .update, .onceTrigger, .update]
    ∀ pre post s, es = pre ++ .update :: post → run {} pre = some s → ChangeLaw "level" pre s := by
  refine on_change_tracks ?_ (by decide +kernel)
  intro p hp _
  simp only [changed, List.mem_cons, List.not_mem_nil, or_false, Event.received.injEq,
    reduceCtorEq, false_or] at hp
  rcases hp with rfl | rfl | rfl <;> rfl

/-- The first update logs the second value and keeps the first one as the reference, so that
going back to it is no change. -/
theorem stale_reference : ∃ s,
    run {} [changed ['1'], changed ['2'], .update, changed ['1']] = some s ∧
    (update s).published "level" = [.value ['2']] ∧
      ¬ ChangeLaw "level" [changed ['1'], changed ['2'], .update, changed ['1']] s := by
  refine ⟨_, rfl, by decide +kernel, ?_⟩
  intro law
  exact absurd (law.latest ['1'] (by decide +kernel)) (by decide +kernel)

/-- Of two changes between updates the first is logged, and the second is dropped. -/
example : (run {} [changed ['1'], .update, changed ['2'], changed ['3'], .update]).map
    (fun s => (s.logData "level", s.published "level")) =
      some (some [⟨"level", ['2'], false, LOG_ON_CHANGE⟩], [.value ['1'], .value ['2']]) := by
  decide +kernel

/-! ## The condition is needed -/

theorem update_onChange {name : String} {s : LogEngine} {front : LogParameter}
    {rest : List LogParameter} (hlist : s.logData name = some (front :: rest))
    (htypes : ∀ p ∈ front :: rest, p.logType = LOG_ON_CHANGE) :
    (update s).logData name = some (updateOnChange s.onceLogFlag front rest).2 ∧
      (update s).published name =
        s.published name ++ (updateOnChange s.onceLogFlag front rest).1 := by
  simp only [update, updateLines, hlist, Option.bind_some, updateList_onChange htypes, and_self]

/-- The state after an update and one value more. -/
theorem received_after_update {name : String} {s s' : LogEngine} {front : LogParameter} {v : Text}
    (hlist : (update s).logData name = some [front])
    (hrun : run s [.update, .received ⟨name, v, false, LOG_ON_CHANGE⟩] = some s') :
    s'.logData name = some [front, ⟨name, v, true, LOG_ON_CHANGE⟩] ∧
      s'.published name = (update s).published name ∧ s'.onceLogFlag = false := by
  obtain ⟨u, hu, hrest⟩ := Machine.run_cons_some.mp hrun
  obtain ⟨u', hreceived, hnil⟩ := Machine.run_cons_some.mp hrest
  obtain rfl := Option.some.inj hu
  obtain rfl := Option.some.inj hnil
  rw [step, received_stored (by simp [LOG_ON_CHANGE, LOG_NEVER])
    (by simp [LOG_ON_CHANGE, LOG_EVERY])] at hreceived
  rw [← Option.some.inj hreceived, hlist]
  exact ⟨store_self _ _ _, rfl, rfl⟩

/-- A reference that is not the value just logged makes the next update log that value again. -/
theorem logged_again {name : String} {es : List Event} {s s' : LogEngine} {front : LogParameter}
    {v : Text} (hlist : (update s).logData name = some [front])
    (htype : front.logType = LOG_ON_CHANGE) (hupdated : front.updated = false)
    (hpublished : ((update s).published name).getLast? = some (.value v)) (hne : v ≠ front.value)
    (hrun : run s [.update, .received ⟨name, v, false, LOG_ON_CHANGE⟩] = some s') :
    ¬ ChangeLaw name (es ++ [.update, .received ⟨name, v, false, LOG_ON_CHANGE⟩]) s' := by
  intro law
  have hsplit : es ++ [.update, .received ⟨name, v, false, LOG_ON_CHANGE⟩] =
      es ++ [.update] ++ [.received ⟨name, v, false, LOG_ON_CHANGE⟩] := by simp
  have hsince : sinceUpdate (es ++ [.update, .received ⟨name, v, false, LOG_ON_CHANGE⟩]) =
      [.received ⟨name, v, false, LOG_ON_CHANGE⟩] := by
    rw [hsplit, sinceUpdate_other rfl, sinceUpdate_update]
    rfl
  have hvalues : values name [.received ⟨name, v, false, LOG_ON_CHANGE⟩] = [v] :=
    values_received ⟨name, v, false, LOG_ON_CHANGE⟩
  obtain ⟨hdata, hsame, hflag⟩ := received_after_update hlist hrun
  have hquiet := law.quiet (by simp [hsince]) (by
    rw [hsince, hvalues, hsame]
    intro w hw
    rw [List.mem_singleton.mp hw]
    exact hpublished)
  have hline : (updateOnChange false front [⟨name, v, true, LOG_ON_CHANGE⟩]).1 = [.value v] := by
    simp [updateOnChange, hupdated, hne]
  have hupdate := (update_onChange hdata (by simpa using htype)).2
  rw [hquiet, hflag, hline, List.self_eq_append_right] at hupdate
  cases hupdate

/-- **An update that does not keep the reference breaks the law, at once or when the value
that it logs comes again.** -/
theorem keeps_needed {name : String} {es : List Event} {s : LogEngine}
    (h : ChangeList name es (s.logData name) (s.published name))
    (hlost : ¬ KeepsReference s.onceLogFlag ((s.logData name).getD [])) :
    ¬ ChangeLaw name es s ∨ ∃ v, ∀ s',
      run s [.update, .received ⟨name, v, false, LOG_ON_CHANGE⟩] = some s' →
        ¬ ChangeLaw name (es ++ [.update, .received ⟨name, v, false, LOG_ON_CHANGE⟩]) s' := by
  cases hlist : s.logData name with
  | none =>
    rw [hlist] at hlost
    exact absurd trivial hlost
  | some list =>
    rw [hlist] at h hlost
    obtain ⟨front, rest, rfl⟩ := h.cons
    have hback := h.latest
    have htypes := h.types
    obtain ⟨hdata, hpublished⟩ := update_onChange hlist htypes
    rw [Option.getD_some, KeepsReference] at hlost
    rw [updateOnChange] at hdata hpublished
    split at hlost
    case isTrue hlog =>
      rw [if_pos hlog] at hdata hpublished
      exact Or.inr ⟨_, fun s' hrun => logged_again hdata (htypes front (by simp)) rfl
        (by rw [hpublished, List.getLast?_concat]) hlost hrun⟩
    case isFalse hlog =>
      rw [if_neg hlog] at hpublished
      push Not at hlost
      obtain ⟨p, hfind, hne⟩ := hlost
      rw [Option.mem_def] at hfind
      rw [hfind] at hpublished
      refine Or.inl fun law => hne ?_
      have hlast := law.latest _ hback
      rw [hpublished, List.getLast?_concat] at hlast
      exact (Line.value.inj (Option.some.inj hlast)).symm

end MuonDetector.Components.LogOnChange
