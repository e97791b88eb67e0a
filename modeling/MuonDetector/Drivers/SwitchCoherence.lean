import MuonDetector.Drivers.SwitchReports

/-!
# Lines, data store and clients agree

Where handlers do not overlap, what was last written to the lines of the switches is what the
data store has, and what the data store has is what the sink was last called with, up to what
still waits in the queue. Requests and failed writes in between change nothing of that. The
polarity has two lines, and is stored only when both of them were written by its command: a
refused second write, or a write to one line alone, is not stored.
-/

namespace MuonDetector.Drivers.Gpio

open MuonDetector.Capnp.CommandCodecs (GpioSignal)
open MuonDetector.Capnp.StatusCodecs (BiasSwitchEvent GainSwitchEvent PolaritySwitchEvent)
open MuonDetector.Core.DataStore (setChannel)
open MuonDetector.Data.Events (PreampSwitchEvent)
open MuonDetector.Core.Handlers MuonDetector.Library MuonDetector.Library.Latest

variable {d : GpioDriver}

/-! ## Values on their way -/

/-- The value of a kind that an event has. -/
def valueOf : (k : Kind) → SwitchEvent → Option k.Data
  | .bias, .bias value => some value
  | .gain, .gain value => some value
  | .polarity, .polarity value => some value
  | _, _ => none

def preampOf (p : Preamp) : SwitchEvent → Option PreampSwitchEvent
  | .preamp event => if event.channel = p.channel then some event else none
  | _ => none

/-- What is stored of a preamplifier, where its place holds an event of its channel. -/
def storedAt (p : Preamp) (s : Daemon) : Option PreampSwitchEvent :=
  (s.data .preamps).bind fun data => preampOf p (.preamp (p.slot data))

section Pending

variable {β : Type} (f : SwitchEvent → Option β)

/-- What a task will store, and what it will send. -/
def storing : Task → Option β
  | .datastoreStoreEvent event => f event
  | _ => none

def sending : Task → Option β
  | .event event => f event
  | _ => none

def lastSent (s : Daemon) : Option β := latest f s.sent none

theorem storing_command {task : Task} (h : IsCommand task) : storing f task = none := by
  cases task with
  | datastoreStoreEvent => cases h
  | _ => rfl

theorem sending_command {task : Task} (h : IsCommand task) : sending f task = none := by
  cases task with
  | event => cases h
  | _ => rfl

end Pending

/-- The lines are ahead of the data store by what waits to be stored, and the data store of the
sink by what waits to be sent. Of the preamplifiers that is said once both are stored. -/
structure Synced (d : GpioDriver) (s : Daemon) (tasks : List Task) : Prop where
  bias : ∀ level, lastWritten ubiasEn s.written = some level →
    latest (storing (valueOf .bias)) tasks (s.data .bias) = some ⟨biasLevel d level⟩
  gain : ∀ level, lastWritten gainHl s.written = some level →
    latest (storing (valueOf .gain)) tasks (s.data .gain) = some ⟨level⟩
  sent : ∀ k, k ≠ .preamps →
    latest (sending (valueOf k)) tasks (lastSent (valueOf k) s) = s.data k
  slots : ∀ data, s.data .preamps = some data →
    (Preamp.first.slot data).channel = 0 ∧
      ((Preamp.second.slot data).channel = 1 ∨ (Preamp.second.slot data).channel = 0)
  preamp : ∀ p level, lastWritten (Preamp.signal p) s.written = some level →
    latest (storing (preampOf p)) tasks (storedAt p s) = some ⟨p.channel, level⟩
  preamps : (∀ p, lastWritten (Preamp.signal p) s.written ≠ none ∧
      latest (storing (preampOf p)) tasks none = none) →
    .request .preamps ∈ tasks ∨
      ∀ p, latest (sending (preampOf p)) tasks (lastSent (preampOf p) s) = storedAt p s

theorem synced_fresh (d : GpioDriver) : Synced d fresh [] where
  bias _ h := by cases h
  gain _ h := by cases h
  sent _ _ := rfl
  slots _ h := by cases h
  preamp _ _ h := by cases h
  preamps _ := .inr fun _ => rfl

/-- Two queues from which the same is stored and sent. -/
structure Same (tasks tasks' : List Task) : Prop where
  value : ∀ k old, latest (storing (valueOf k)) tasks' old = latest (storing (valueOf k)) tasks old
  preamp : ∀ p old,
    latest (storing (preampOf p)) tasks' old = latest (storing (preampOf p)) tasks old
  sentValue : ∀ k old,
    latest (sending (valueOf k)) tasks' old = latest (sending (valueOf k)) tasks old
  sentPreamp : ∀ p old,
    latest (sending (preampOf p)) tasks' old = latest (sending (preampOf p)) tasks old
  request : .request .preamps ∈ tasks → .request .preamps ∈ tasks'

theorem Synced.same {s : Daemon} {tasks tasks' : List Task} (hsame : Same tasks tasks')
    (h : Synced d s tasks) : Synced d s tasks' where
  bias level hlast := by rw [hsame.value]; exact h.bias level hlast
  gain level hlast := by rw [hsame.value]; exact h.gain level hlast
  sent k hk := by rw [hsame.sentValue]; exact h.sent k hk
  slots := h.slots
  preamp p level hlast := by rw [hsame.preamp]; exact h.preamp p level hlast
  preamps hboth := by
    simp only [hsame.preamp] at hboth
    simp only [hsame.sentPreamp]
    exact (h.preamps hboth).imp_left hsame.request

/-- Commands in the queue change nothing. -/
theorem Synced.insert {s : Daemon} {front others back : List Task}
    (hothers : ∀ t ∈ others, IsCommand t) (h : Synced d s (front ++ back)) :
    Synced d s (front ++ others ++ back) := by
  have hstoring : ∀ {β : Type} (f : SwitchEvent → Option β) (old : Option β),
      latest (storing f) (front ++ others ++ back) old =
        latest (storing f) (front ++ back) old := by
    intro β f old
    rw [latest_append, latest_append, latest_append,
      latest_of_none fun t ht => storing_command f (hothers t ht)]
  have hsending : ∀ {β : Type} (f : SwitchEvent → Option β) (old : Option β),
      latest (sending f) (front ++ others ++ back) old =
        latest (sending f) (front ++ back) old := by
    intro β f old
    rw [latest_append, latest_append, latest_append,
      latest_of_none fun t ht => sending_command f (hothers t ht)]
  refine h.same ⟨fun _ => hstoring _, fun _ => hstoring _, fun _ => hsending _,
    fun _ => hsending _, fun hmem => ?_⟩
  rcases List.mem_append.mp hmem with hmem | hmem <;> simp [hmem]

theorem Synced.append {s : Daemon} {tasks others : List Task}
    (hothers : ∀ t ∈ others, IsCommand t) (h : Synced d s tasks) :
    Synced d s (tasks ++ others) := by
  rw [← List.append_nil tasks] at h
  have hmore := h.insert hothers
  rwa [List.append_nil] at hmore

/-- A command leaves the queue. -/
theorem Synced.tail {s : Daemon} {task : Task} {tasks : List Task}
    (h : Synced d s (task :: tasks)) (hcommand : IsCommand task)
    (hother : task ≠ .request .preamps) : Synced d s tasks := by
  have hstoring : ∀ {β : Type} (f : SwitchEvent → Option β) (old : Option β),
      latest (storing f) tasks old = latest (storing f) (task :: tasks) old := by
    intro β f old
    rw [latest, storing_command f hcommand, Option.none_or]
  have hsending : ∀ {β : Type} (f : SwitchEvent → Option β) (old : Option β),
      latest (sending f) tasks old = latest (sending f) (task :: tasks) old := by
    intro β f old
    rw [latest, sending_command f hcommand, Option.none_or]
  refine h.same ⟨fun _ => hstoring _, fun _ => hstoring _, fun _ => hsending _,
    fun _ => hsending _, fun hmem => ?_⟩
  exact (List.mem_cons.mp hmem).resolve_left hother.symm

/-! ## Writes -/

theorem lastWritten_write (s : Daemon) (sig : GpioSignal) (gpio : Nat) (value : Bool)
    (sig' : GpioSignal) : lastWritten sig' (s.write sig gpio value).written =
      if sig = sig' then some value else lastWritten sig' s.written :=
  lastWritten_concat ..

/-- A write to a line of no switch, and tasks that no switch is stored or sent by. -/
theorem Synced.write_other {s : Daemon} {tasks : List Task} {sig : GpioSignal} {gpio : Nat}
    {value : Bool} (hbias : sig ≠ ubiasEn) (hgain : sig ≠ gainHl)
    (hpreamp : ∀ p, sig ≠ Preamp.signal p) (h : Synced d s tasks) :
    Synced d (s.write sig gpio value) tasks where
  bias level hlast := h.bias level (by rwa [lastWritten_write, if_neg hbias] at hlast)
  gain level hlast := h.gain level (by rwa [lastWritten_write, if_neg hgain] at hlast)
  sent := h.sent
  slots := h.slots
  preamp p level hlast := h.preamp p level (by rwa [lastWritten_write, if_neg (hpreamp p)] at hlast)
  preamps hboth := h.preamps fun p => by
    have hp := hboth p
    rwa [lastWritten_write, if_neg (hpreamp p)] at hp

section Concat

variable {β : Type} {f : SwitchEvent → Option β} {tasks : List Task} {old : Option β}

theorem storing_stored (event : SwitchEvent) :
    latest (storing f) (tasks ++ [.datastoreStoreEvent event]) old =
      (f event).or (latest (storing f) tasks old) := latest_concat _

theorem sending_stored (event : SwitchEvent) :
    latest (sending f) (tasks ++ [.datastoreStoreEvent event]) old =
      latest (sending f) tasks old := latest_concat _

theorem storing_event (event : SwitchEvent) :
    latest (storing f) (tasks ++ [.event event]) old = latest (storing f) tasks old :=
  latest_concat _

theorem sending_event (event : SwitchEvent) :
    latest (sending f) (tasks ++ [.event event]) old =
      (f event).or (latest (sending f) tasks old) := latest_concat _

end Concat

/-- What is stored after a write to the line of a switch. -/
inductive Announces (d : GpioDriver) (value : Bool) : GpioSignal → SwitchEvent → Prop where
  | bias : Announces d value ubiasEn (.bias ⟨biasLevel d value⟩)
  | gain : Announces d value gainHl (.gain ⟨value⟩)
  | preamp (p : Preamp) : Announces d value p.signal (.preamp ⟨p.channel, value⟩)

theorem preamp_signal_ne (p : Preamp) : ubiasEn ≠ p.signal ∧ gainHl ≠ p.signal := by
  cases p <;> decide

theorem preampOf_self (p : Preamp) (value : Bool) :
    preampOf p (.preamp ⟨p.channel, value⟩) = some ⟨p.channel, value⟩ := by
  simp [preampOf]

theorem preampOf_other {p p' : Preamp} (h : p ≠ p') (value : Bool) :
    preampOf p' (.preamp ⟨p.channel, value⟩) = none ∧ p.signal ≠ p'.signal := by
  cases p <;> cases p' <;> first | exact absurd rfl h | exact ⟨rfl, by decide⟩

theorem Synced.write {s : Daemon} {tasks : List Task} {sig : GpioSignal} {gpio : Nat}
    {value : Bool} {event : SwitchEvent} (he : Announces d value sig event)
    (h : Synced d s tasks) :
    Synced d (s.write sig gpio value) (tasks ++ [.datastoreStoreEvent event]) where
  bias level hlast := by
    rw [lastWritten_write] at hlast
    rw [storing_stored]
    cases he with
    | bias =>
      rw [if_pos rfl] at hlast
      rw [Option.some.inj hlast]
      rfl
    | gain => exact h.bias level (by rwa [if_neg (by decide)] at hlast)
    | preamp p => exact h.bias level (by rwa [if_neg (preamp_signal_ne p).1.symm] at hlast)
  gain level hlast := by
    rw [lastWritten_write] at hlast
    rw [storing_stored]
    cases he with
    | bias => exact h.gain level (by rwa [if_neg (by decide)] at hlast)
    | gain =>
      rw [if_pos rfl] at hlast
      rw [Option.some.inj hlast]
      rfl
    | preamp p => exact h.gain level (by rwa [if_neg (preamp_signal_ne p).2.symm] at hlast)
  sent k hk := by
    rw [sending_stored]
    exact h.sent k hk
  slots := h.slots
  preamp p level hlast := by
    rw [lastWritten_write] at hlast
    rw [storing_stored]
    cases he with
    | bias => exact h.preamp p level (by rwa [if_neg (preamp_signal_ne p).1] at hlast)
    | gain => exact h.preamp p level (by rwa [if_neg (preamp_signal_ne p).2] at hlast)
    | preamp p' =>
      by_cases hp : p' = p
      · subst hp
        obtain rfl : value = level := by simpa using hlast
        rw [preampOf_self]
        rfl
      · obtain ⟨hnone, hne⟩ := preampOf_other hp value
        rw [hnone]
        exact h.preamp p level (by rwa [if_neg hne] at hlast)
  preamps hboth := by
    simp only [storing_stored, sending_stored] at hboth ⊢
    refine (h.preamps fun p => ?_).imp_left fun hmem => by simp [hmem]
    obtain ⟨hwritten, hnone⟩ := hboth p
    obtain ⟨hevent, hrest⟩ := Option.or_eq_none_iff.mp hnone
    refine ⟨?_, hrest⟩
    rw [lastWritten_write] at hwritten
    cases he with
    | bias => rwa [if_neg (preamp_signal_ne p).1] at hwritten
    | gain => rwa [if_neg (preamp_signal_ne p).2] at hwritten
    | preamp p' =>
      by_cases hp : p' = p
      · subst hp
        rw [preampOf_self] at hevent
        cases hevent
      · rwa [if_neg (preampOf_other hp value).2] at hwritten

/-! ## The handlers of the commands -/

/-- What the handlers keep. -/
abbrev Keeps (d : GpioDriver) (p : Prog) (s : Daemon) (tasks : List Task) : Prop :=
  p.wp (bindings d) IsCommand (fun _ => True) (Synced d) s tasks

theorem keeps_publish {s : Daemon} {tasks : List Task} {task : Task}
    (h : Synced d s (tasks ++ [task])) : Keeps d (.publish task .done) s tasks :=
  fun _ hothers => h.insert hothers

theorem keeps_command {s : Daemon} {tasks : List Task} {task : Task} (hcommand : IsCommand task)
    (h : Synced d s tasks) : Keeps d (.publish task .done) s tasks :=
  keeps_publish (h.append fun _ ht => List.mem_singleton.mp ht ▸ hcommand)

/-- `writeSignal` fails and writes nothing, or writes the line and publishes its edge. -/
theorem keeps_writeSignal {s : Daemon} {tasks : List Task} {sig : GpioSignal} {value : Bool}
    {next : Bool → Prog} (h : Synced d s tasks)
    (hfails : ∀ tasks, Synced d s tasks → Keeps d (next false) s tasks)
    (hwrites : ∀ gpio tasks, Synced d s tasks →
      Keeps d (next true) (s.write sig gpio value) tasks) :
    Keeps d (writeSignal d sig value next) s tasks := by
  unfold writeSignal
  split
  · exact h
  · next gpio _ =>
    intro others granted hothers _
    have hmore := h.append hothers
    have hexec : (bindings d).exec granted s (.writeGpio sig gpio value) =
        (s.write sig gpio value, true) ∨
        (bindings d).exec granted s (.writeGpio sig gpio value) = (s, false) := by
      change (if _ then _ else _) = _ ∨ (if _ then _ else _) = _
      split_ifs <;> simp
    rcases hexec with hexec | hexec <;> rw [hexec]
    · intro others' hothers'
      have hedge : ∀ t ∈ [Task.gpioEvent sig value], IsCommand t := by simp [IsCommand]
      exact hwrites gpio _ ((hmore.append hothers').append hedge)
    · exact hfails _ hmore

theorem keeps_announce {s : Daemon} {tasks : List Task} {sig : GpioSignal} {on : Bool} (gpio : Nat)
    (h : Synced d s tasks) : Keeps d (announce d sig on) (s.write sig gpio on) tasks := by
  unfold announce
  split_ifs with hbias hpreamp1 hpreamp2 hgain
  · subst hbias
    exact keeps_publish (h.write .bias)
  · subst hpreamp1
    exact keeps_publish (h.write (.preamp .first))
  · subst hpreamp2
    exact keeps_publish (h.write (.preamp .second))
  · subst hgain
    exact keeps_publish (h.write .gain)
  · refine h.write_other hbias hgain fun p => ?_
    cases p
    · exact hpreamp1
    · exact hpreamp2

theorem keeps_gpioSignalSetCmd {s : Daemon} {tasks : List Task} (sig : GpioSignal) (on : Bool)
    (h : Synced d s tasks) : Keeps d (handler d (.gpioSignalSetCmd sig on)) s tasks :=
  keeps_writeSignal h (fun _ h => h) fun gpio _ h => keeps_announce gpio h

/-- The polarity waits to be stored. -/
theorem Synced.append_polarity {s : Daemon} {tasks : List Task} (value : PolaritySwitchEvent)
    (h : Synced d s tasks) :
    Synced d s (tasks ++ [.datastoreStoreEvent (.polarity value)]) where
  bias level hlast := by rw [storing_stored]; exact h.bias level hlast
  gain level hlast := by rw [storing_stored]; exact h.gain level hlast
  sent k hk := by rw [sending_stored]; exact h.sent k hk
  slots := h.slots
  preamp p level hlast := by rw [storing_stored]; exact h.preamp p level hlast
  preamps hboth := by
    simp only [storing_stored, sending_stored] at hboth ⊢
    exact (h.preamps hboth).imp_left fun hmem => by simp [hmem]

theorem keeps_polaritySwitchCmd {s : Daemon} {tasks : List Task} (pol1 pol2 : Bool)
    (h : Synced d s tasks) : Keeps d (handler d (.polaritySwitchCmd pol1 pol2)) s tasks := by
  have hother : ∀ {s : Daemon} {tasks : List Task} {sig : GpioSignal} {gpio : Nat} {value : Bool},
      sig = inPol1 ∨ sig = inPol2 → Synced d s tasks → Synced d (s.write sig gpio value) tasks := by
    rintro s tasks sig gpio value (rfl | rfl) h
    · exact h.write_other (by decide) (by decide) fun p => by cases p <;> decide
    · exact h.write_other (by decide) (by decide) fun p => by cases p <;> decide
  refine keeps_writeSignal h (fun _ h => h) fun gpio _ h => ?_
  refine keeps_writeSignal (hother (.inl rfl) h) (fun _ h => h) fun gpio _ h => ?_
  exact keeps_publish ((hother (.inr rfl) h).append_polarity _)

/-! ## The handlers of the data store and of the sink -/

theorem keeps_event {s : Daemon} {tasks : List Task} (event : SwitchEvent)
    (h : Synced d s (.event event :: tasks)) : Keeps d (handler d (.event event)) s tasks := by
  intro others _ hothers _
  have hsent : ∀ {β : Type} (f : SwitchEvent → Option β) (tasks : List Task),
      latest (sending f) tasks (lastSent f (s.handle event)) =
        latest (sending f) (.event event :: tasks) (lastSent f s) := by
    intro β f tasks
    rw [lastSent, Daemon.handle, latest_concat]
    rfl
  have hnext : Synced d (s.handle event) tasks := by
    refine ⟨h.bias, h.gain, fun k hk => ?_, h.slots, h.preamp, fun hboth => ?_⟩
    · rw [hsent]
      exact h.sent k hk
    · simp only [hsent]
      exact (h.preamps hboth).imp_left fun hmem => by simpa using hmem
  exact hnext.append hothers

/-- An event of one kind, and of no preamplifier. -/
structure OfKind (k : Kind) (value : k.Data) (event : SwitchEvent) : Prop where
  notPreamps : k ≠ .preamps
  value : valueOf k event = some value
  others : ∀ k', k' ≠ k → valueOf k' event = none
  preamps : ∀ p, preampOf p event = none

theorem ofKind_bias (value : BiasSwitchEvent) : OfKind .bias value (.bias value) :=
  ⟨by decide, rfl, fun k' hk => by cases k' <;> first | rfl | exact absurd rfl hk, fun _ => rfl⟩

theorem ofKind_gain (value : GainSwitchEvent) : OfKind .gain value (.gain value) :=
  ⟨by decide, rfl, fun k' hk => by cases k' <;> first | rfl | exact absurd rfl hk, fun _ => rfl⟩

theorem ofKind_polarity (value : PolaritySwitchEvent) : OfKind .polarity value (.polarity value) :=
  ⟨by decide, rfl, fun k' hk => by cases k' <;> first | rfl | exact absurd rfl hk, fun _ => rfl⟩

/-- A value is stored and the event of it waits to be sent. -/
theorem Synced.store {s : Daemon} {tasks : List Task} {k : Kind} {value : k.Data}
    {event : SwitchEvent} (hk : OfKind k value event)
    (h : Synced d s (.datastoreStoreEvent event :: tasks)) :
    Synced d (s.store k value) (tasks ++ [.event event]) := by
  have hdata : ∀ k', latest (storing (valueOf k')) tasks ((s.store k value).data k') =
      latest (storing (valueOf k')) (.datastoreStoreEvent event :: tasks) (s.data k') := by
    intro k'
    by_cases hk' : k' = k
    · subst hk'
      rw [Daemon.store_data_self, latest, storing, hk.value]
      rfl
    · rw [Daemon.store_data_of_ne hk', latest, storing, hk.others k' hk', Option.none_or]
  have hpreamps : (s.store k value).data .preamps = s.data .preamps :=
    Daemon.store_data_of_ne hk.notPreamps.symm
  have hat : ∀ p, storedAt p (s.store k value) = storedAt p s := fun p => by
    rw [storedAt, storedAt, hpreamps]
  have hstoring : ∀ p old, latest (storing (preampOf p)) (.datastoreStoreEvent event :: tasks) old =
      latest (storing (preampOf p)) tasks old := fun p old => by
    rw [latest, storing, hk.preamps p, Option.none_or]
  refine ⟨fun level hlast => ?_, fun level hlast => ?_, fun k' hk' => ?_, fun data hd => ?_,
    fun p level hlast => ?_, fun hboth => ?_⟩
  · rw [storing_event, hdata]
    exact h.bias level hlast
  · rw [storing_event, hdata]
    exact h.gain level hlast
  · rw [sending_event]
    by_cases hkk : k' = k
    · subst hkk
      rw [hk.value, Daemon.store_data_self]
      rfl
    · rw [hk.others k' hkk, Option.none_or, Daemon.store_data_of_ne hkk]
      exact h.sent k' hk'
  · exact h.slots data (hpreamps ▸ hd)
  · rw [storing_event, hat, ← hstoring]
    exact h.preamp p level hlast
  · simp only [storing_event, ← hstoring] at hboth
    simp only [sending_event, hk.preamps, Option.none_or, hat]
    exact (h.preamps hboth).imp_left fun hmem => by simpa using hmem

theorem keeps_subscribeOne {s : Daemon} {tasks : List Task} {k : Kind} {value : k.Data}
    {event : SwitchEvent} (hk : OfKind k value event)
    (h : Synced d s (.datastoreStoreEvent event :: tasks)) :
    Keeps d (subscribeOne k value event) s tasks := by
  intro others _ hothers _
  exact keeps_publish ((h.store hk).insert hothers)

/-! ## The preamplifiers -/

/-- Every channel up to the second is that of a preamplifier. -/
theorem exists_channel {channel : UInt8} (h : ¬ channel > 1) :
    ∃ p : Preamp, channel = p.channel := by
  have hle : channel.toNat ≤ 1 := Nat.not_lt.mp h
  rcases Nat.le_one_iff_eq_zero_or_eq_one.mp hle with hzero | hone
  · exact ⟨.first, UInt8.toNat_inj.mp hzero⟩
  · exact ⟨.second, UInt8.toNat_inj.mp hone⟩

theorem channel_inj {p p' : Preamp} (h : p.channel = p'.channel) : p = p' := by
  cases p <;> cases p' <;> first | rfl | exact absurd h (by decide)

theorem preampOf_channel (p p' : Preamp) {event : PreampSwitchEvent}
    (h : event.channel = p'.channel) :
    preampOf p (.preamp event) = if p = p' then some event else none := by
  rw [preampOf, h]
  by_cases hp : p = p'
  · rw [if_pos hp, if_pos (by rw [hp])]
  · rw [if_neg hp, if_neg fun h => hp (channel_inj h.symm)]

/-- The places after an event of a preamplifier is stored. -/
theorem slots_setChannel {data : Vector PreampSwitchEvent 2} {event : PreampSwitchEvent}
    (h : (Preamp.first.slot data).channel = 0 ∧
      ((Preamp.second.slot data).channel = 1 ∨ (Preamp.second.slot data).channel = 0)) :
    (Preamp.first.slot (setChannel data event)).channel = 0 ∧
      ((Preamp.second.slot (setChannel data event)).channel = 1 ∨
        (Preamp.second.slot (setChannel data event)).channel = 0) := by
  have hslot : ∀ p : Preamp, (p.slot (setChannel data event)).channel = p.channel ∨
      (p.slot (setChannel data event)).channel = (p.slot data).channel := by
    intro p
    rw [slot_setChannel]
    split_ifs with hc
    · exact .inl hc
    · exact .inr rfl
  constructor
  · exact (hslot .first).elim id fun hkept => hkept.trans h.1
  · exact (hslot .second).elim .inl fun hkept => h.2.imp hkept.trans hkept.trans

/-- What is stored of the preamplifiers afterwards. -/
theorem storedAt_store (s : Daemon) (data : Vector PreampSwitchEvent 2)
    {event : PreampSwitchEvent} {p' : Preamp} (hevent : event.channel = p'.channel) (p : Preamp) :
    storedAt p (s.store .preamps (setChannel data event)) =
      if p = p' then some event else preampOf p (.preamp (p.slot data)) := by
  rw [storedAt, Daemon.store_data_self, Option.bind_some, slot_setChannel, hevent]
  by_cases hp : p = p'
  · subst hp
    rw [if_pos rfl, if_pos rfl, preampOf_channel p p hevent, if_pos rfl]
  · rw [if_neg fun h => hp (channel_inj h).symm, if_neg hp]

section Store

variable {s : Daemon} {tasks : List Task} {event : PreampSwitchEvent} {p' : Preamp}
  {data : Vector PreampSwitchEvent 2}

theorem storing_preamp (hevent : event.channel = p'.channel) (p : Preamp)
    (old : Option PreampSwitchEvent) :
    latest (storing (preampOf p)) (.datastoreStoreEvent (.preamp event) :: tasks) old =
      latest (storing (preampOf p)) tasks (if p = p' then some event else old) := by
  rw [latest, storing, preampOf_channel p p' hevent]
  by_cases hp : p = p'
  · rw [if_pos hp, if_pos hp, Option.some_or]
  · rw [if_neg hp, if_neg hp, Option.none_or]

theorem valueOf_preamp (k : Kind) : valueOf k (.preamp event) = none := by
  cases k <;> rfl

/-- The first event of a preamplifier: of the other one nothing is stored. -/
theorem Synced.store_first (hevent : event.channel = p'.channel) (hnone : s.data .preamps = none)
    (h : Synced d s (.datastoreStoreEvent (.preamp event) :: tasks)) :
    Synced d (s.store .preamps (setChannel (.replicate 2 {}) event)) tasks where
  bias level hlast := h.bias level hlast
  gain level hlast := h.gain level hlast
  sent k hk := by
    rw [Daemon.store_data_of_ne hk]
    exact h.sent k hk
  slots data' hd := by
    rw [Daemon.store_data_self] at hd
    obtain rfl := Option.some.inj hd
    exact slots_setChannel ⟨rfl, .inr rfl⟩
  preamp p level hlast := by
    have hbefore := h.preamp p level hlast
    rw [storing_preamp hevent, storedAt, hnone, Option.bind_none] at hbefore
    rw [storedAt_store s _ hevent]
    by_cases hp : p = p'
    · rw [if_pos hp] at hbefore ⊢
      exact hbefore
    · rw [if_neg hp] at hbefore
      exact latest_of_some hbefore
  preamps hboth := by
    -- the other preamplifier is not stored yet
    obtain ⟨other, hother⟩ : ∃ other, other ≠ p' := by
      cases p' with
      | first => exact ⟨.second, by decide⟩
      | second => exact ⟨.first, by decide⟩
    obtain ⟨hwritten, hpending⟩ := hboth other
    obtain ⟨level, hlast⟩ := Option.ne_none_iff_exists'.mp hwritten
    have hbefore := h.preamp other level hlast
    rw [storing_preamp hevent, storedAt, hnone, Option.bind_none, if_neg hother,
      hpending] at hbefore
    cases hbefore

/-- A later one, after which both are requested. -/
theorem Synced.store_next (hevent : event.channel = p'.channel)
    (hsome : s.data .preamps = some data)
    (h : Synced d s (.datastoreStoreEvent (.preamp event) :: tasks)) :
    Synced d (s.store .preamps (setChannel data event)) (tasks ++ [.request .preamps]) := by
  have hrequest : ∀ t ∈ [Task.request .preamps], IsCommand t := by simp [IsCommand]
  have hstoring : ∀ {β : Type} (f : SwitchEvent → Option β) (old : Option β),
      latest (storing f) (tasks ++ [.request .preamps]) old = latest (storing f) tasks old := by
    intro β f old
    exact latest_concat _
  have hsending : ∀ {β : Type} (f : SwitchEvent → Option β) (old : Option β),
      latest (sending f) (tasks ++ [.request .preamps]) old = latest (sending f) tasks old := by
    intro β f old
    exact latest_concat _
  refine ⟨fun level hlast => ?_, fun level hlast => ?_, fun k hk => ?_, fun data' hd => ?_,
    fun p level hlast => ?_, fun _ => .inl (by simp)⟩
  · rw [hstoring]
    exact h.bias level hlast
  · rw [hstoring]
    exact h.gain level hlast
  · rw [hsending, Daemon.store_data_of_ne hk]
    exact h.sent k hk
  · rw [Daemon.store_data_self] at hd
    obtain rfl := Option.some.inj hd
    exact slots_setChannel (h.slots data hsome)
  · have hbefore := h.preamp p level hlast
    rw [storing_preamp hevent, storedAt, hsome, Option.bind_some] at hbefore
    rw [hstoring, storedAt_store s _ hevent]
    exact hbefore

end Store

theorem keeps_storePreamp {s : Daemon} {tasks : List Task} (event : PreampSwitchEvent)
    (h : Synced d s (.datastoreStoreEvent (.preamp event) :: tasks)) :
    Keeps d (storePreamp event) s tasks := by
  unfold storePreamp
  split_ifs with hchannel
  · -- an event of no preamplifier is not stored
    have hnone : ∀ p : Preamp, preampOf p (.preamp event) = none := by
      intro p
      rw [preampOf, if_neg]
      rintro heq
      rw [heq] at hchannel
      cases p <;> exact absurd hchannel (by decide)
    have hsame : Same (.datastoreStoreEvent (.preamp event) :: tasks) tasks := by
      refine ⟨fun k old => ?_, fun p old => ?_, fun _ _ => rfl, fun _ _ => rfl, fun hmem => ?_⟩
      · have hnew : storing (valueOf k) (.datastoreStoreEvent (.preamp event)) = none :=
          valueOf_preamp k
        rw [latest_cons, hnew, Option.none_or]
      · have hnew : storing (preampOf p) (.datastoreStoreEvent (.preamp event)) = none := hnone p
        rw [latest_cons, hnew, Option.none_or]
      · simpa using hmem
    exact h.same hsame
  · obtain ⟨p', hevent⟩ := exists_channel hchannel
    intro others _ hothers _
    have hmore : Synced d s (.datastoreStoreEvent (.preamp event) :: (tasks ++ others)) :=
      h.append hothers
    change Program.wp _ _ _ _ (if (s.data .preamps).isSome then _ else _) s _
    cases hdata : s.data .preamps with
    | none =>
      intro others' _ hothers' _
      exact (hmore.store_first hevent hdata).append hothers'
    | some data =>
      intro others' _ hothers' _
      have hmore' : Synced d s (.datastoreStoreEvent (.preamp event) ::
          (tasks ++ others ++ others')) := hmore.append hothers'
      change Program.wp _ _ _ _ (match s.data .preamps with | none => _ | some data => _) s _
      rw [hdata]
      intro others'' _ hothers'' _
      exact keeps_publish ((hmore'.store_next hevent hdata).insert hothers'')

/-! ## The handlers of the requests -/

theorem keeps_publishes {s : Daemon} {tasks : List Task} {events : List SwitchEvent}
    (h : Synced d s (tasks ++ events.map .event)) :
    Keeps d (events.foldr (fun event next => .publish (.event event) next) .done) s tasks := by
  induction events generalizing tasks with
  | nil =>
    rw [List.map_nil, List.append_nil] at h
    exact h
  | cons event events ih =>
    intro others hothers
    refine ih ?_
    have hmore := h.insert hothers
    rwa [List.map_cons, ← List.singleton_append, ← List.append_assoc] at hmore

theorem keeps_answer {s : Daemon} {tasks : List Task} {k : Kind}
    (hnone : s.data k = none → Synced d s tasks)
    (hsome : ∀ value, s.data k = some value →
      Synced d s (tasks ++ (eventsOf k value).map .event)) :
    Keeps d (answer k) s tasks := by
  intro others _ hothers _
  change Program.wp _ _ _ _ (if (s.data k).isSome then _ else _) s _
  cases hdata : s.data k with
  | none => exact (hnone hdata).append hothers
  | some value =>
    intro others' _ hothers' _
    change Program.wp _ _ _ _ (match s.data k with | none => _ | some value => _) s _
    rw [hdata]
    refine keeps_publishes ?_
    exact ((hsome value hdata).insert hothers).insert hothers'

/-- What is stored waits to be sent again. -/
theorem Synced.resend {s : Daemon} {tasks : List Task} {k : Kind} {value : k.Data}
    {event : SwitchEvent} (hk : OfKind k value event) (hdata : s.data k = some value)
    (h : Synced d s tasks) : Synced d s (tasks ++ [.event event]) where
  bias level hlast := by rw [storing_event]; exact h.bias level hlast
  gain level hlast := by rw [storing_event]; exact h.gain level hlast
  sent k' hk' := by
    rw [sending_event]
    by_cases hkk : k' = k
    · subst hkk
      rw [hk.value, hdata]
      rfl
    · rw [hk.others k' hkk, Option.none_or]
      exact h.sent k' hk'
  slots := h.slots
  preamp p level hlast := by rw [storing_event]; exact h.preamp p level hlast
  preamps hboth := by
    simp only [storing_event] at hboth
    simp only [sending_event, hk.preamps, Option.none_or]
    exact (h.preamps hboth).imp_left fun hmem => by simp [hmem]

theorem keeps_request {s : Daemon} {tasks : List Task} {k : Kind} (hother : k ≠ .preamps)
    (hone : ∀ value : k.Data, ∃ event, eventsOf k value = [event] ∧ OfKind k value event)
    (h : Synced d s (.request k :: tasks)) : Keeps d (handler d (.request k)) s tasks := by
  have htail : Synced d s tasks := h.tail trivial fun heq => hother (Task.request.inj heq)
  refine keeps_answer (fun _ => htail) fun value hdata => ?_
  obtain ⟨event, hevents, hk⟩ := hone value
  rw [hevents]
  exact htail.resend hk hdata

/-- Where both preamplifiers were written and nothing of them waits to be stored, both places
have an event of theirs. -/
theorem Synced.places {s : Daemon} {tasks : List Task} {data : Vector PreampSwitchEvent 2}
    (h : Synced d s tasks) (hdata : s.data .preamps = some data)
    (hboth : ∀ p, lastWritten (Preamp.signal p) s.written ≠ none ∧
      latest (storing (preampOf p)) tasks none = none) (p : Preamp) :
    storedAt p s = some (p.slot data) ∧ (p.slot data).channel = p.channel := by
  obtain ⟨hwritten, hpending⟩ := hboth p
  obtain ⟨level, hlast⟩ := Option.ne_none_iff_exists'.mp hwritten
  have hstored := h.preamp p level hlast
  rw [latest_of_eq_none hpending] at hstored
  have hat : storedAt p s =
      if (p.slot data).channel = p.channel then some (p.slot data) else none := by
    rw [storedAt, hdata]
    rfl
  rw [hat] at hstored ⊢
  split_ifs at hstored ⊢ with hc
  exact ⟨rfl, hc⟩

theorem Synced.resend_preamps {s : Daemon} {tasks : List Task}
    {data : Vector PreampSwitchEvent 2} (hdata : s.data .preamps = some data)
    (h : Synced d s (.request .preamps :: tasks)) :
    Synced d s (tasks ++ (eventsOf .preamps data).map .event) := by
  have hevents : tasks ++ (eventsOf .preamps data).map Task.event =
      tasks ++ [.event (.preamp (Preamp.first.slot data))] ++
        [.event (.preamp (Preamp.second.slot data))] := by
    simp [eventsOf]
  rw [hevents]
  refine ⟨fun level hlast => ?_, fun level hlast => ?_, fun k hk => ?_, h.slots,
    fun p level hlast => ?_, fun hboth => .inr fun p => ?_⟩
  · rw [storing_event, storing_event]
    exact h.bias level hlast
  · rw [storing_event, storing_event]
    exact h.gain level hlast
  · rw [sending_event, sending_event, valueOf_preamp, valueOf_preamp]
    exact h.sent k hk
  · rw [storing_event, storing_event]
    exact h.preamp p level hlast
  · simp only [storing_event] at hboth
    have hplaces := h.places hdata hboth
    have hsecond := (hplaces .second).2
    have hfirst := (hplaces .first).2
    rw [(hplaces p).1, sending_event, sending_event, preampOf_channel p .second hsecond,
      preampOf_channel p .first hfirst]
    cases p <;> rfl

theorem keeps_request_preamps {s : Daemon} {tasks : List Task}
    (h : Synced d s (.request .preamps :: tasks)) :
    Keeps d (handler d (.request .preamps)) s tasks := by
  refine keeps_answer (fun hnone => ?_) fun _ hdata => h.resend_preamps hdata
  refine ⟨h.bias, h.gain, h.sent, h.slots, h.preamp, fun hboth => ?_⟩
  -- a preamplifier that was written is stored, or waits to be
  obtain ⟨hwritten, hpending⟩ := hboth .first
  obtain ⟨level, hlast⟩ := Option.ne_none_iff_exists'.mp hwritten
  have hstored := h.preamp .first level hlast
  have hpending' : latest (storing (preampOf .first)) (.request .preamps :: tasks) none = none :=
    hpending
  rw [latest_of_eq_none hpending', storedAt, hnone] at hstored
  cases hstored

/-! ## The polarity -/

/-- The writes to the two lines of the polarity. -/
def polarityWrites (written : List (GpioSignal × Bool)) : List (GpioSignal × Bool) :=
  written.filter fun p => p.1 = inPol1 ∨ p.1 = inPol2

/-- Where the last write went to the second line, right after one to the first, these two
levels are stored. -/
def PolarityStored (s : Daemon) (tasks : List Task) : Prop :=
  ∀ front a b, polarityWrites s.written = front ++ [(inPol1, a), (inPol2, b)] →
    latest (storing (valueOf .polarity)) tasks (s.data .polarity) = some ⟨a, b⟩

/-- A task that writes to the lines of the polarity by their command only. -/
def Proper : Task → Prop
  | .gpioSignalSetCmd sig _ => sig ≠ inPol1 ∧ sig ≠ inPol2
  | _ => True

/-- What other threads publish there. -/
def ProperCommand (task : Task) : Prop := IsCommand task ∧ Proper task

/-- The stored polarity is up to date, and nothing waits that writes to one of the lines. -/
structure PolaritySynced (s : Daemon) (tasks : List Task) : Prop where
  stored : PolarityStored s tasks
  proper : ∀ t ∈ tasks, Proper t

/-- A task that leaves the polarity alone. -/
def LeavesPolarity (task : Task) : Prop :=
  storing (valueOf .polarity) task = none ∧ Proper task

theorem ProperCommand.leaves {task : Task} (h : ProperCommand task) : LeavesPolarity task :=
  ⟨storing_command _ h.1, h.2⟩

theorem PolaritySynced.append {s : Daemon} {tasks others : List Task} (h : PolaritySynced s tasks)
    (hothers : ∀ t ∈ others, LeavesPolarity t) : PolaritySynced s (tasks ++ others) where
  stored front a b hwrites := by
    rw [latest_append, latest_of_none fun t ht => (hothers t ht).1]
    exact h.stored front a b hwrites
  proper t ht := (List.mem_append.mp ht).elim (h.proper t) fun ht => (hothers t ht).2

theorem PolaritySynced.tail {s : Daemon} {task : Task} {tasks : List Task}
    (h : PolaritySynced s (task :: tasks)) (htask : storing (valueOf .polarity) task = none) :
    PolaritySynced s tasks where
  stored front a b hwrites := by
    have hbefore := h.stored front a b hwrites
    rwa [latest_cons, htask, Option.none_or] at hbefore
  proper t ht := h.proper t (List.mem_cons_of_mem _ ht)

/-- An operation that neither writes to the lines of the polarity nor stores it. -/
def Op.LeavesPolarity : Op → Prop
  | .writeGpio sig _ _ => sig ≠ inPol1 ∧ sig ≠ inPol2
  | .store k _ => k ≠ .polarity
  | _ => True

theorem polarityWrites_concat (written : List (GpioSignal × Bool)) (sig : GpioSignal)
    (value : Bool) : polarityWrites (written ++ [(sig, value)]) =
      polarityWrites written ++ if sig = inPol1 ∨ sig = inPol2 then [(sig, value)] else [] := by
  by_cases h : sig = inPol1 ∨ sig = inPol2 <;> simp [polarityWrites, h]

theorem PolaritySynced.exec {s : Daemon} {tasks : List Task} {op : Op} (hop : op.LeavesPolarity)
    (granted : Bool) (h : PolaritySynced s tasks) :
    PolaritySynced (exec d granted s op).1 tasks := by
  cases op with
  | writeGpio sig gpio value =>
    rw [Gpio.exec]
    split_ifs
    · refine ⟨fun front a b hwrites => h.stored front a b ?_, h.proper⟩
      rwa [Daemon.write, polarityWrites_concat, if_neg (not_or.mpr hop), List.append_nil]
        at hwrites
    · exact h
  | store k value =>
    refine ⟨fun front a b hwrites => ?_, h.proper⟩
    rw [Gpio.exec, Daemon.store_data_of_ne (Ne.symm hop)]
    exact h.stored front a b hwrites
  | lastUpdate => exact h
  | get => exact h
  | handle => exact ⟨h.stored, h.proper⟩

/-- A program that leaves the polarity alone. -/
def Quiet : Prog → Prop
  | .done => True
  | .throws => True
  | .publish task next => LeavesPolarity task ∧ Quiet next
  | .call op next => op.LeavesPolarity ∧ ∀ r, Quiet (next r)

/-- What the handlers keep of the polarity. -/
abbrev KeepsPolarity (d : GpioDriver) (p : Prog) (s : Daemon) (tasks : List Task) : Prop :=
  p.wp (bindings d) ProperCommand (fun _ => True) PolaritySynced s tasks

theorem keeps_of_quiet {p : Prog} (hp : Quiet p) {s : Daemon} {tasks : List Task}
    (h : PolaritySynced s tasks) : KeepsPolarity d p s tasks := by
  induction p generalizing s tasks with
  | done => exact h
  | throws => exact h
  | publish task next ih =>
    intro others hothers
    have hmore := h.append fun t ht => (hothers t ht).leaves
    exact ih hp.2 (hmore.append fun t ht => List.mem_singleton.mp ht ▸ hp.1)
  | call op next ih =>
    intro others granted hothers _
    exact ih _ (hp.2 _) (PolaritySynced.exec hp.1 granted (h.append fun t ht =>
      (hothers t ht).leaves))

theorem quiet_writeSignal {sig : GpioSignal} {value : Bool} {next : Bool → Prog}
    (hsig : sig ≠ inPol1 ∧ sig ≠ inPol2) (hnext : ∀ ok, Quiet (next ok)) :
    Quiet (writeSignal d sig value next) := by
  unfold writeSignal
  split
  · trivial
  · refine ⟨hsig, fun ok => ?_⟩
    cases ok with
    | false => exact hnext false
    | true => exact ⟨⟨rfl, trivial⟩, hnext true⟩

theorem quiet_announce (sig : GpioSignal) (on : Bool) : Quiet (announce d sig on) := by
  unfold announce
  split_ifs <;> trivial

theorem quiet_answer (k : Kind) : Quiet (answer k) := by
  refine ⟨trivial, fun has => ?_⟩
  cases has with
  | false => trivial
  | true =>
    refine ⟨trivial, fun value? => ?_⟩
    cases value? with
    | none => trivial
    | some value =>
      simp only
      induction eventsOf k value with
      | nil => trivial
      | cons event events ih => exact ⟨⟨rfl, trivial⟩, ih⟩

theorem quiet_storePreamp (event : PreampSwitchEvent) : Quiet (storePreamp event) := by
  unfold storePreamp
  split_ifs
  · trivial
  · refine ⟨trivial, fun has => ?_⟩
    cases has with
    | false => exact ⟨by simp [Op.LeavesPolarity], fun _ => trivial⟩
    | true =>
      refine ⟨trivial, fun data? => ?_⟩
      cases data? with
      | none => trivial
      | some data =>
        exact ⟨by simp [Op.LeavesPolarity], fun _ => ⟨⟨rfl, trivial⟩, trivial⟩⟩

/-- Every handler but two leaves the polarity alone. -/
theorem quiet_handler {task : Task} (hproper : Proper task)
    (hcommand : ∀ pol1 pol2, task ≠ .polaritySwitchCmd pol1 pol2)
    (hstore : ∀ value, task ≠ .datastoreStoreEvent (.polarity value)) :
    Quiet (handler d task) := by
  cases task with
  | biasSwitchCmd state => exact ⟨⟨rfl, by decide, by decide⟩, trivial⟩
  | gainSwitchCmd state => exact ⟨⟨rfl, by decide, by decide⟩, trivial⟩
  | preampSwitchCmd channel state =>
    simp only [handler]
    split_ifs
    · exact ⟨⟨rfl, by decide, by decide⟩, trivial⟩
    · exact ⟨⟨rfl, by decide, by decide⟩, trivial⟩
    · trivial
  | polaritySwitchCmd pol1 pol2 => exact absurd rfl (hcommand pol1 pol2)
  | gpioSignalSetCmd sig on =>
    refine quiet_writeSignal hproper fun ok => ?_
    cases ok with
    | false => trivial
    | true => exact quiet_announce sig on
  | request k => exact quiet_answer k
  | datastoreStoreEvent event =>
    cases event with
    | bias value => exact ⟨by simp [Op.LeavesPolarity], fun _ => ⟨⟨rfl, trivial⟩, trivial⟩⟩
    | gain value => exact ⟨by simp [Op.LeavesPolarity], fun _ => ⟨⟨rfl, trivial⟩, trivial⟩⟩
    | polarity value => exact absurd rfl (hstore value)
    | preamp event => exact quiet_storePreamp event
  | event event => exact ⟨trivial, fun _ => trivial⟩
  | gpioEvent sig rising => trivial

/-- After a write to the first line alone nothing is said of the store. -/
theorem PolarityStored.write_first {s : Daemon} {gpio : Nat} {value : Bool} {tasks : List Task} :
    PolarityStored (s.write inPol1 gpio value) tasks := by
  intro front a b hwrites
  rw [Daemon.write, polarityWrites_concat, if_pos (.inl rfl)] at hwrites
  have hlast := congrArg List.getLast? hwrites
  simp only [List.getLast?_append, List.getLast?_singleton, List.getLast?_cons_cons,
    Option.some_or, Option.some.injEq, Prod.mk.injEq] at hlast
  exact absurd hlast.1 (by decide)

theorem keepsPolarity_writeSignal {s : Daemon} {tasks : List Task} {sig : GpioSignal}
    {value : Bool} {next : Bool → Prog} (h : PolaritySynced s tasks)
    (hfails : ∀ tasks, PolaritySynced s tasks → KeepsPolarity d (next false) s tasks)
    (hwrites : ∀ gpio tasks, (∀ t ∈ tasks, Proper t) →
      KeepsPolarity d (next true) (s.write sig gpio value) tasks) :
    KeepsPolarity d (writeSignal d sig value next) s tasks := by
  unfold writeSignal
  split
  · exact h
  · next gpio _ =>
    intro others granted hothers _
    have hmore := h.append fun t ht => (hothers t ht).leaves
    have hexec : (bindings d).exec granted s (.writeGpio sig gpio value) =
        (s.write sig gpio value, true) ∨
        (bindings d).exec granted s (.writeGpio sig gpio value) = (s, false) := by
      change (if _ then _ else _) = _ ∨ (if _ then _ else _) = _
      split_ifs <;> simp
    rcases hexec with hexec | hexec <;> rw [hexec]
    · intro others' hothers'
      refine hwrites gpio _ fun t ht => ?_
      rcases List.mem_append.mp ht with ht | ht
      · exact (hmore.append fun t ht => (hothers' t ht).leaves).proper t ht
      · rw [List.mem_singleton.mp ht]
        trivial
    · exact hfails _ hmore

theorem keepsPolarity_command {s : Daemon} {tasks : List Task} (pol1 pol2 : Bool)
    (h : PolaritySynced s tasks) :
    KeepsPolarity d (handler d (.polaritySwitchCmd pol1 pol2)) s tasks := by
  refine keepsPolarity_writeSignal h (fun _ h => h) fun gpio₁ tasks₁ hproper₁ => ?_
  refine keepsPolarity_writeSignal ⟨.write_first, hproper₁⟩ (fun _ h => h)
    fun gpio₂ tasks₂ hproper₂ others hothers => ⟨fun front a b hwrites => ?_, fun t ht => ?_⟩
  · -- the two writes are those of this command
    rw [Daemon.write, Daemon.write, polarityWrites_concat, polarityWrites_concat,
      if_pos (.inl rfl), if_pos (.inr rfl), List.append_assoc] at hwrites
    have hpair := (List.append_inj' hwrites rfl).2
    simp only [List.cons_append, List.nil_append, List.cons.injEq, Prod.mk.injEq, true_and,
      and_true] at hpair
    rw [storing_stored, hpair.1, hpair.2]
    rfl
  · rcases List.mem_append.mp ht with ht | ht
    · rcases List.mem_append.mp ht with ht | ht
      · exact hproper₂ t ht
      · exact (hothers t ht).2
    · rw [List.mem_singleton.mp ht]
      trivial

theorem keepsPolarity_store {s : Daemon} {tasks : List Task} (value : PolaritySwitchEvent)
    (h : PolaritySynced s (.datastoreStoreEvent (.polarity value) :: tasks)) :
    KeepsPolarity d (handler d (.datastoreStoreEvent (.polarity value))) s tasks := by
  intro others _ hothers _
  have hstored : PolaritySynced (s.store .polarity value) tasks := by
    refine ⟨fun front a b hwrites => ?_, fun t ht => h.proper t (List.mem_cons_of_mem _ ht)⟩
    rw [Daemon.store_data_self]
    exact h.stored front a b hwrites
  have hmore := hstored.append fun t ht => (hothers t ht).leaves
  exact keeps_of_quiet (p := .publish (.event (.polarity value)) .done)
    ⟨⟨rfl, trivial⟩, trivial⟩ hmore

theorem keepsPolarity_handler {s : Daemon} {task : Task} {tasks : List Task}
    (h : PolaritySynced s (task :: tasks)) : KeepsPolarity d (handler d task) s tasks := by
  by_cases hcommand : ∃ pol1 pol2, task = .polaritySwitchCmd pol1 pol2
  · obtain ⟨pol1, pol2, rfl⟩ := hcommand
    exact keepsPolarity_command pol1 pol2 (h.tail rfl)
  · by_cases hstore : ∃ value, task = .datastoreStoreEvent (.polarity value)
    · obtain ⟨value, rfl⟩ := hstore
      exact keepsPolarity_store value h
    · have hnone : storing (valueOf .polarity) task = none := by
        cases task with
        | datastoreStoreEvent event =>
          cases event with
          | polarity value => exact absurd ⟨value, rfl⟩ hstore
          | _ => rfl
        | _ => rfl
      exact keeps_of_quiet (quiet_handler (h.proper task (List.mem_cons_self ..))
        (fun pol1 pol2 heq => hcommand ⟨pol1, pol2, heq⟩) fun value heq => hstore ⟨value, heq⟩)
        (h.tail hnone)

/-! ## Every run -/

theorem keeps_handler {s : Daemon} {task : Task} {tasks : List Task}
    (h : Synced d s (task :: tasks)) : Keeps d (handler d task) s tasks := by
  cases task with
  | biasSwitchCmd state => exact keeps_command trivial (h.tail trivial (by simp))
  | gainSwitchCmd state => exact keeps_command trivial (h.tail trivial (by simp))
  | preampSwitchCmd channel state =>
    have htail : Synced d s tasks := h.tail trivial (by simp)
    simp only [handler]
    split_ifs
    · exact keeps_command trivial htail
    · exact keeps_command trivial htail
    · exact htail
  | polaritySwitchCmd pol1 pol2 =>
    exact keeps_polaritySwitchCmd pol1 pol2 (h.tail trivial (by simp))
  | gpioSignalSetCmd sig on => exact keeps_gpioSignalSetCmd sig on (h.tail trivial (by simp))
  | request k =>
    cases k with
    | bias => exact keeps_request (by decide) (fun value => ⟨_, rfl, ofKind_bias value⟩) h
    | gain => exact keeps_request (by decide) (fun value => ⟨_, rfl, ofKind_gain value⟩) h
    | polarity => exact keeps_request (by decide) (fun value => ⟨_, rfl, ofKind_polarity value⟩) h
    | preamps => exact keeps_request_preamps h
  | datastoreStoreEvent event =>
    cases event with
    | bias value => exact keeps_subscribeOne (ofKind_bias value) h
    | gain value => exact keeps_subscribeOne (ofKind_gain value) h
    | polarity value => exact keeps_subscribeOne (ofKind_polarity value) h
    | preamp event => exact keeps_storePreamp event h
  | event event => exact keeps_event event h
  | gpioEvent sig rising => exact h.tail trivial (by simp)

/-- Lines, data store and sink agree. -/
structure Coherent (d : GpioDriver) (s : Daemon) : Prop where
  lines : LinesFollow d s
  bias : ∀ level, lastWritten ubiasEn s.written = some level →
    s.data .bias = some ⟨biasLevel d level⟩
  gain : ∀ level, lastWritten gainHl s.written = some level → s.data .gain = some ⟨level⟩
  preamp : ∀ p level, lastWritten (Preamp.signal p) s.written = some level →
    storedAt p s = some ⟨p.channel, level⟩
  sent : ∀ k, k ≠ .preamps → lastSent (valueOf k) s = s.data k
  preamps : (∀ p, lastWritten (Preamp.signal p) s.written ≠ none) →
    ∀ p, lastSent (preampOf p) s = storedAt p s

/-- With an empty queue nothing is on its way. -/
theorem Synced.coherent {s : Daemon} (hs : Known d s) (h : Synced d s []) : Coherent d s where
  lines := hs.lines
  bias := h.bias
  gain := h.gain
  preamp := h.preamp
  sent := h.sent
  preamps hboth := (h.preamps fun p => ⟨hboth p, rfl⟩).resolve_left (by simp)

/-- **On one worker, or where the handlers on several do not overlap, lines, data store and
sink agree whenever no handler runs and no task waits**: a switch that was written is stored
as the level of its line, and the event that was sent last of it has what is stored. The events
of the preamplifiers agree once both were written. The stored polarity is that of its lines
where they are written by its command only and the last write to them was to the second. -/
theorem switches_coherent (major : Nat) (inputs outputs : Bool) (numThreads : Nat)
    (ls : List (Label Task Bool)) (s : World Daemon Task Op Op.Res)
    (hls : ∀ task, .publish task ∈ ls → IsCommand task)
    (hturn : numThreads = 1 ∨ Machine.Meets (step (bindings (init major inputs outputs))) InTurn
      (start numThreads fresh) ls)
    (h : run (bindings (init major inputs outputs)) (start numThreads fresh) ls = some s)
    (hidle : Idle s) (hempty : waiting s = []) :
    Coherent (init major inputs outputs) s.shared ∧
      ((∀ task, .publish task ∈ ls → Proper task) → PolarityStored s.shared []) := by
  have hmeets : Machine.Meets (step (bindings (init major inputs outputs))) InTurn
      (start numThreads fresh) ls := by
    rcases hturn with rfl | hturn
    · exact inTurn_of_one rfl h
    · exact hturn
  have hwithin : ∀ Env : Task → Prop, (∀ task, .publish task ∈ ls → Env task) →
      ∀ l ∈ ls, Within Env (fun _ => True) l := by
    intro Env henv l hl
    cases l with
    | publish task => exact henv task hl
    | take => trivial
    | run => trivial
  have hstable : Stable IsCommand (Synced (init major inputs outputs)) :=
    fun s tasks task hs htask => hs.append fun t ht => List.mem_singleton.mp ht ▸ htask
  have hsynced := serial_run hstable (fun _ _ _ hs => keeps_handler hs)
    (synced_fresh _) (hwithin IsCommand hls) hmeets h hidle
  rw [hempty] at hsynced
  refine ⟨hsynced.coherent (known_run major inputs outputs numThreads ls s hls h), ?_⟩
  intro hproper
  have hstable' : Stable ProperCommand PolaritySynced :=
    fun s tasks task hs htask => hs.append fun t ht => List.mem_singleton.mp ht ▸ htask.leaves
  have hbegin : PolaritySynced fresh [] := by
    refine ⟨fun front a b hwrites => ?_, by simp⟩
    have hlen := congrArg List.length hwrites
    simp [fresh, polarityWrites] at hlen
  have hpolarity := serial_run hstable' (fun _ _ _ hs => keepsPolarity_handler hs) hbegin
    (hwithin ProperCommand fun task htask => ⟨hls task htask, hproper task htask⟩) hmeets h hidle
  rw [hempty] at hpolarity
  exact hpolarity.stored

/-- The bias is switched on and requested on one worker. -/
theorem switches_coherent_bias : ∃ s, run (bindings (init 3 true true)) (start 1 fresh)
    [.publish (.biasSwitchCmd true), .publish (.request .bias), .take 0, .run 0 true, .run 0 true,
      .take 0, .run 0 true, .run 0 true, .take 0, .run 0 true, .run 0 true, .run 0 true,
      .run 0 true, .take 0, .run 0 true, .take 0, .run 0 true, .run 0 true, .run 0 true,
      .take 0, .run 0 true, .run 0 true] = some s ∧
      lastWritten ubiasEn s.shared.written = some false ∧ Coherent (init 3 true true) s.shared := by
  have hlast : (run (bindings (init 3 true true)) (start 1 fresh)
      [.publish (.biasSwitchCmd true), .publish (.request .bias), .take 0, .run 0 true,
        .run 0 true, .take 0, .run 0 true, .run 0 true, .take 0, .run 0 true, .run 0 true,
        .run 0 true, .run 0 true, .take 0, .run 0 true, .take 0, .run 0 true, .run 0 true,
        .run 0 true, .take 0, .run 0 true, .run 0 true]).map
      (fun s => (lastWritten ubiasEn s.shared.written, (waiting s).isEmpty,
        s.pool.busy.isEmpty)) = some (some false, true, true) := by
    decide +kernel
  obtain ⟨s, hr, hlast⟩ := Option.map_eq_some_iff.mp hlast
  obtain ⟨hwritten, hrest⟩ := Prod.mk.inj hlast
  obtain ⟨hwaiting, hbusy⟩ := Prod.mk.inj hrest
  refine ⟨s, hr, hwritten, (switches_coherent 3 true true 1 _ s (fun task htask => ?_) (.inl rfl) hr
    (List.isEmpty_iff.mp hbusy) (List.isEmpty_iff.mp hwaiting)).1⟩
  simp at htask
  rcases htask with rfl | rfl <;> trivial

end MuonDetector.Drivers.Gpio
