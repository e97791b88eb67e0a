import MuonDetector.Drivers.Gpio
import MuonDetector.Library.Latest

/-!
# What is reported of the switches

On any number of workers, and however their handlers overlap, the sink is called only with
what was written to the lines, and each line has the level of the last write to its signal.
The exception is a preamplifier that is not stored while the other one is: a request sends
the entry that the data store begins with, which is that of the first one switched off.
-/

namespace MuonDetector.Drivers.Gpio

open MuonDetector.Capnp.CommandCodecs (GpioSignal)
open MuonDetector.Core.DataStore (setChannel)
open MuonDetector.Data.Events (PreampSwitchEvent)
open MuonDetector.Core.Handlers MuonDetector.Library MuonDetector.Library.Latest

variable {d : GpioDriver}

/-! ## What is known -/

/-- The levels that the event reports were written. -/
def Written (d : GpioDriver) (written : List (GpioSignal × Bool)) : SwitchEvent → Prop
  | .bias event => (ubiasEn, biasLevel d event.biasOn) ∈ written
  | .gain event => (gainHl, event.state) ∈ written
  | .polarity event => (inPol1, event.pol1) ∈ written ∧ (inPol2, event.pol2) ∈ written
  | .preamp event => ∃ p : Preamp, event.channel = p.channel ∧ (p.signal, event.state) ∈ written

/-- What the event reports was written, or it is the entry that the data store begins with
for a preamplifier, and one of the two was written. -/
def Reported (d : GpioDriver) (written : List (GpioSignal × Bool)) (event : SwitchEvent) : Prop :=
  Written d written event ∨
    event = .preamp {} ∧ ∃ (p : Preamp) (state : Bool), (p.signal, state) ∈ written

/-- The same of what is stored. -/
def Stored (d : GpioDriver) (written : List (GpioSignal × Bool)) (k : Kind) (value : k.Data) :
    Prop :=
  ∀ event ∈ eventsOf k value, Reported d written event

/-- The value of the last write to a signal. -/
def lastWritten (sig : GpioSignal) (written : List (GpioSignal × Bool)) : Option Bool :=
  latest (fun p => if p.1 = sig then some p.2 else none) written none

/-- Each line has the level of the last write to its signal. -/
def LinesFollow (d : GpioDriver) (s : Daemon) : Prop :=
  ∀ sig pin value, d.pinmap.lookup sig = some pin → lastWritten sig s.written = some value →
    s.levels pin = value

structure Known (d : GpioDriver) (s : Daemon) : Prop where
  lines : LinesFollow d s
  data : ∀ k value, s.data k = some value → Stored d s.written k value
  sent : ∀ event ∈ s.sent, Reported d s.written event

/-- Commands and requests are what other threads publish. -/
def IsCommand : Task → Prop
  | .datastoreStoreEvent _ => False
  | .event _ => False
  | _ => True

def guards (d : GpioDriver) : Guards Daemon Task Op Op.Res where
  Holds := Known d
  Later s s' := s.written ⊆ s'.written
  Allowed s
    | .datastoreStoreEvent event => Reported d s.written event
    | .event event => Reported d s.written event
    | _ => True
  Pre s
    | .writeGpio sig gpio _ => d.pinmap.lookup sig = some gpio
    | .store k value => Stored d s.written k value
    | .handle event => Reported d s.written event
    | _ => True
  Post
    | .writeGpio sig _ value, ok, s => ok = true → (sig, value) ∈ s.written
    | .get k, value?, s => ∀ value, value? = some value → Stored d s.written k value
    | _, _, _ => True

theorem Reported.mono {written written' : List (GpioSignal × Bool)} (h : written ⊆ written')
    {event : SwitchEvent} (hr : Reported d written event) : Reported d written' event := by
  rcases hr with hr | ⟨hempty, p, state, hp⟩
  · left
    cases event with
    | bias => exact h hr
    | gain => exact h hr
    | polarity => exact ⟨h hr.1, h hr.2⟩
    | preamp =>
      obtain ⟨p, hchannel, hp⟩ := hr
      exact ⟨p, hchannel, h hp⟩
  · exact .inr ⟨hempty, p, state, h hp⟩

/-- An event of a preamplifier comes after a write to one. -/
theorem Reported.preamp_written {written : List (GpioSignal × Bool)} {event : PreampSwitchEvent}
    (h : Reported d written (.preamp event)) :
    ∃ (p : Preamp) (state : Bool), (p.signal, state) ∈ written := by
  rcases h with ⟨p, -, hp⟩ | ⟨-, hsome⟩
  · exact ⟨p, _, hp⟩
  · exact hsome

theorem Stored.mono {written written' : List (GpioSignal × Bool)} (h : written ⊆ written')
    {k : Kind} {value : k.Data} (hs : Stored d written k value) : Stored d written' k value :=
  fun event he => (hs event he).mono h

/-! ## The operations -/

theorem lastWritten_concat (sig sig' : GpioSignal) (value : Bool)
    (written : List (GpioSignal × Bool)) :
    lastWritten sig (written ++ [(sig', value)]) =
      if sig' = sig then some value else lastWritten sig written := by
  rw [lastWritten, latest_concat]
  by_cases h : sig' = sig
  · simp [h]
  · simp [h, lastWritten]

theorem LinesFollow.write (hd : OneToOne d.pinmap) {s : Daemon} (hs : LinesFollow d s)
    {sig : GpioSignal} {gpio : Nat} (hpin : d.pinmap.lookup sig = some gpio) (value : Bool) :
    LinesFollow d (s.write sig gpio value) := by
  intro sig' pin value' hpin' hlast
  change Function.update s.levels gpio value pin = value'
  rw [Daemon.write, lastWritten_concat] at hlast
  by_cases hsig : sig = sig'
  · subst hsig
    rw [if_pos rfl] at hlast
    obtain rfl := Option.some.inj (hpin.symm.trans hpin')
    rw [Function.update_self]
    exact Option.some.inj hlast
  · rw [if_neg hsig] at hlast
    have hne : pin ≠ gpio := fun h => hsig (hd.injective hpin (h ▸ hpin'))
    rw [Function.update_of_ne hne]
    exact hs sig' pin value' hpin' hlast

theorem Known.write (hd : OneToOne d.pinmap) {s : Daemon} (hs : Known d s) {sig : GpioSignal}
    {gpio : Nat} (hpin : d.pinmap.lookup sig = some gpio) (value : Bool) :
    Known d (s.write sig gpio value) where
  lines := hs.lines.write hd hpin value
  data k v hv := (hs.data k v hv).mono (List.subset_append_left _ _)
  sent event he := (hs.sent event he).mono (List.subset_append_left _ _)

theorem Known.store {s : Daemon} (hs : Known d s) {k : Kind} {value : k.Data}
    (hvalue : Stored d s.written k value) : Known d (s.store k value) where
  lines := hs.lines
  data k' v hv := by
    by_cases hk : k' = k
    · subst hk
      rw [Daemon.store_data_self] at hv
      exact Option.some.inj hv ▸ hvalue
    · rw [Daemon.store_data_of_ne hk] at hv
      exact hs.data k' v hv
  sent := hs.sent

theorem Known.handle {s : Daemon} (hs : Known d s) {event : SwitchEvent}
    (hevent : Reported d s.written event) : Known d (s.handle event) where
  lines := hs.lines
  data := hs.data
  sent e he := by
    rcases List.mem_append.mp he with he | he
    · exact hs.sent e he
    · exact List.mem_singleton.mp he ▸ hevent

theorem guards_exec (hd : OneToOne d.pinmap) (granted : Bool) {s : Daemon} {op : Op}
    (hs : Known d s) (hpre : (guards d).Pre s op) :
    (guards d).Later s (exec d granted s op).1 ∧ Known d (exec d granted s op).1 ∧
      (guards d).Post op (exec d granted s op).2 (exec d granted s op).1 := by
  cases op with
  | writeGpio sig gpio value =>
    by_cases hok : granted ∧ d.gpioMap.lookup gpio = some .output
    · rw [exec, if_pos hok]
      exact ⟨List.subset_append_left _ _, hs.write hd hpre value, fun _ => by simp [Daemon.write]⟩
    · rw [exec, if_neg hok]
      exact ⟨List.Subset.refl _, hs, fun h => by cases h⟩
  | lastUpdate k => exact ⟨List.Subset.refl _, hs, trivial⟩
  | get k => exact ⟨List.Subset.refl _, hs, hs.data k⟩
  | store k value => exact ⟨List.Subset.refl _, hs.store hpre, trivial⟩
  | handle event => exact ⟨List.Subset.refl _, hs.handle hpre, trivial⟩

/-! ## The handlers -/

/-- After a successful write its value is known to be written, for good. -/
theorem safe_writeSignal {sig : GpioSignal} {value : Bool} {next : Bool → Prog} {s : Daemon}
    (hnext : ∀ (s' : Daemon) ok, s.written ⊆ s'.written → (ok = true → (sig, value) ∈ s'.written) →
      (next ok).Safe (guards d) s') : (writeSignal d sig value next).Safe (guards d) s := by
  unfold writeSignal
  split
  · trivial
  · next gpio hgpio =>
    refine ⟨hgpio, fun s' ok hl hpost => ?_⟩
    have hsafe := hnext s' ok hl hpost
    cases ok with
    | false => exact hsafe
    | true => exact ⟨trivial, hsafe⟩

theorem safe_announce {sig : GpioSignal} {on : Bool} {s : Daemon} (h : (sig, on) ∈ s.written) :
    (announce d sig on).Safe (guards d) s := by
  unfold announce
  split_ifs with hbias hpreamp1 hpreamp2 hgain
  · subst hbias
    refine ⟨.inl ?_, trivial⟩
    change (ubiasEn, biasLevel d (biasLevel d on)) ∈ s.written
    rw [biasLevel_biasLevel]
    exact h
  · subst hpreamp1
    exact ⟨.inl ⟨.first, rfl, h⟩, trivial⟩
  · subst hpreamp2
    exact ⟨.inl ⟨.second, rfl, h⟩, trivial⟩
  · subst hgain
    exact ⟨.inl h, trivial⟩
  · trivial

theorem safe_publishes {events : List SwitchEvent} {s : Daemon}
    (h : ∀ event ∈ events, Reported d s.written event) :
    (events.foldr (fun event next => .publish (.event event) next)
      (.done : Prog)).Safe (guards d) s := by
  induction events with
  | nil => trivial
  | cons event events ih => exact ⟨h event (by simp), ih fun e he => h e (by simp [he])⟩

theorem safe_answer (k : Kind) (s : Daemon) : (answer k).Safe (guards d) s := by
  refine ⟨trivial, fun s' has _ _ => ?_⟩
  cases has with
  | false => trivial
  | true =>
    refine ⟨trivial, fun s'' value? _ hpost => ?_⟩
    cases value? with
    | none => trivial
    | some value => exact safe_publishes (hpost value rfl)

theorem stored_preamps {written : List (GpioSignal × Bool)} {data : Vector PreampSwitchEvent 2} :
    Stored d written .preamps data ↔ ∀ p : Preamp, Reported d written (.preamp (p.slot data)) := by
  simp only [Stored, eventsOf, List.mem_cons, List.not_mem_nil, or_false, forall_eq_or_imp,
    forall_eq]
  constructor
  · rintro ⟨hfirst, hsecond⟩ (_ | _)
    · exact hfirst
    · exact hsecond
  · exact fun h => ⟨h .first, h .second⟩

theorem stored_setChannel {written : List (GpioSignal × Bool)} {data : Vector PreampSwitchEvent 2}
    {event : PreampSwitchEvent} (hdata : Stored d written .preamps data)
    (hevent : Reported d written (.preamp event)) :
    Stored d written .preamps (setChannel data event) := by
  refine stored_preamps.mpr fun p => ?_
  rw [slot_setChannel]
  split_ifs
  · exact hevent
  · exact stored_preamps.mp hdata p

theorem safe_storePreamp {event : PreampSwitchEvent} {s : Daemon}
    (h : Reported d s.written (.preamp event)) : (storePreamp event).Safe (guards d) s := by
  unfold storePreamp
  split_ifs with hchannel
  · trivial
  · refine ⟨trivial, fun s' has hl _ => ?_⟩
    cases has with
    | false =>
      have hempty : Stored d s'.written .preamps (.replicate 2 {}) :=
        stored_preamps.mpr fun p => .inr ⟨by cases p <;> rfl, (h.mono hl).preamp_written⟩
      exact ⟨stored_setChannel hempty (h.mono hl), fun _ _ _ _ => trivial⟩
    | true =>
      refine ⟨trivial, fun s'' data? hl' hpost => ?_⟩
      cases data? with
      | none => trivial
      | some data =>
        have hevent := (h.mono hl).mono hl'
        exact ⟨stored_setChannel (hpost data rfl) hevent, fun _ _ _ _ => ⟨trivial, trivial⟩⟩

theorem safe_subscribeOne {k : Kind} {value : k.Data} {event : SwitchEvent} {s : Daemon}
    (hone : eventsOf k value = [event]) (hevent : Reported d s.written event) :
    (subscribeOne k value event).Safe (guards d) s := by
  refine ⟨fun e he => ?_, fun _ _ hl _ => ⟨hevent.mono hl, trivial⟩⟩
  rw [hone] at he
  exact List.mem_singleton.mp he ▸ hevent

theorem guards_handler {s : Daemon} {task : Task} (h : (guards d).Allowed s task) :
    (handler d task).Safe (guards d) s := by
  cases task with
  | biasSwitchCmd state => exact ⟨trivial, trivial⟩
  | gainSwitchCmd state => exact ⟨trivial, trivial⟩
  | preampSwitchCmd channel state =>
    simp only [handler]
    split_ifs
    · exact ⟨trivial, trivial⟩
    · exact ⟨trivial, trivial⟩
    · trivial
  | polaritySwitchCmd pol1 pol2 =>
    refine safe_writeSignal fun s' ok hl hok => ?_
    cases ok with
    | false => trivial
    | true =>
      refine safe_writeSignal fun s'' ok' hl' hok' => ?_
      cases ok' with
      | false => trivial
      | true => exact ⟨.inl ⟨hl' (hok rfl), hok' rfl⟩, trivial⟩
  | gpioSignalSetCmd sig on =>
    refine safe_writeSignal fun s' ok hl hok => ?_
    cases ok with
    | false => trivial
    | true => exact safe_announce (hok rfl)
  | request k => exact safe_answer k s
  | datastoreStoreEvent event =>
    cases event with
    | bias value => exact safe_subscribeOne rfl h
    | gain value => exact safe_subscribeOne rfl h
    | polarity value => exact safe_subscribeOne rfl h
    | preamp event => exact safe_storePreamp h
  | event event => exact ⟨h, fun _ _ _ _ => trivial⟩
  | gpioEvent sig rising => trivial

theorem guards_sound (hd : OneToOne d.pinmap) : (guards d).Sound (bindings d) where
  refl _ := List.Subset.refl _
  trans h h' := List.Subset.trans h h'
  allowed := by
    intro s s' task hl h
    cases task with
    | datastoreStoreEvent event => exact Reported.mono hl h
    | event event => exact Reported.mono hl h
    | _ => trivial
  pre := by
    intro s s' op hl h
    cases op with
    | writeGpio => exact h
    | store k value => exact Stored.mono hl h
    | handle event => exact Reported.mono hl h
    | _ => trivial
  exec granted _ _ hs hpre := guards_exec hd granted hs hpre
  handler h := guards_handler h

theorem known_fresh (d : GpioDriver) : Known d fresh where
  lines _ _ _ _ h := by cases h
  data _ _ h := by cases h
  sent _ h := by cases h

theorem known_run (major : Nat) (inputs outputs : Bool) (numThreads : Nat)
    (ls : List (Label Task Bool)) (s : World Daemon Task Op Op.Res)
    (hls : ∀ task, .publish task ∈ ls → IsCommand task)
    (h : run (bindings (init major inputs outputs)) (start numThreads fresh) ls = some s) :
    Known (init major inputs outputs) s.shared := by
  have hmeets : Machine.Meets (step (bindings (init major inputs outputs)))
      (PublishesAllowed (guards (init major inputs outputs))) (start numThreads fresh) ls := by
    refine Machine.meets_of_forall fun l hl s => ?_
    cases l with
    | publish task =>
      have hcommand := hls task hl
      cases task with
      | datastoreStoreEvent => cases hcommand
      | event => cases hcommand
      | _ => trivial
    | _ => trivial
  exact (allSafe_run (guards_sound (oneToOne_init major inputs outputs))
    (known_fresh _) hmeets h).shared

/-- **On any number of workers, and however their handlers overlap, every switch event that
the sink is called with reports what was written, up to the first entries of the preamplifiers,
and every line has the level of the last write to its signal.** -/
theorem switches_reported (major : Nat) (inputs outputs : Bool) (numThreads : Nat)
    (ls : List (Label Task Bool)) (s : World Daemon Task Op Op.Res)
    (hls : ∀ task, .publish task ∈ ls → IsCommand task)
    (h : run (bindings (init major inputs outputs)) (start numThreads fresh) ls = some s) :
    LinesFollow (init major inputs outputs) s.shared ∧
      ∀ event ∈ s.shared.sent, Reported (init major inputs outputs) s.shared.written event := by
  have hknown := known_run major inputs outputs numThreads ls s hls h
  exact ⟨hknown.lines, hknown.sent⟩

/-- The bias is switched on while a second worker handles a request for it. -/
theorem switches_reported_bias : ∃ s, run (bindings (init 3 true true)) (start 2 fresh)
    [.publish (.biasSwitchCmd true), .take 0, .run 0 true, .publish (.request .bias), .take 1,
      .run 1 true, .run 0 true, .take 0, .run 0 true, .run 1 true] = some s ∧
      lastWritten ubiasEn s.shared.written = some false ∧ LinesFollow (init 3 true true) s.shared ∧
      ∀ event ∈ s.shared.sent, Reported (init 3 true true) s.shared.written event := by
  have hlast : (run (bindings (init 3 true true)) (start 2 fresh)
      [.publish (.biasSwitchCmd true), .take 0, .run 0 true, .publish (.request .bias), .take 1,
        .run 1 true, .run 0 true, .take 0, .run 0 true, .run 1 true]).map
      (fun s => lastWritten ubiasEn s.shared.written) = some (some false) := by
    decide +kernel
  obtain ⟨s, hr, hlast⟩ := Option.map_eq_some_iff.mp hlast
  refine ⟨s, hr, hlast, switches_reported 3 true true 2 _ s (fun task htask => ?_) hr⟩
  simp at htask
  rcases htask with rfl | rfl <;> trivial

end MuonDetector.Drivers.Gpio
