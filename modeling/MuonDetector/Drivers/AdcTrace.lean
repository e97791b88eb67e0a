import MuonDetector.Drivers.Adc

/-!
# Traces around a trigger

One index says whether a trigger is awaited, or how many samples came after it. A trace is
cut out when forty samples have come, and holds the samples of the buffer: the latest
fifty since the mode was entered.
-/

namespace MuonDetector.Drivers.Adc

open MuonDetector.Data.Events (ADS1115Event)
open MuonDetector.Library.Messages
open MuonDetector.Hardware.Adc (Ads1115 Answers Sample)
open MuonDetector.Capnp.CommandCodecs (GpioSignal EventTriggerCmd)
open MuonDetector.Capnp.EventCodecs (AdcTraceEvent)

/-! ## Sections and handlers -/

/-- The sections of the handlers that hold the lock. -/
inductive Section where
  | mode (mode : UInt8)
  | gpioEvent (signal : GpioSignal)
  | eventTrigger (cmd : EventTriggerCmd)
  | sample (voltage : Binary32)
  deriving DecidableEq, Repr

/-- What is done without another thread in between: the section of a handler, or a conversion
of the device with the callback, which publishes behind its section. What two threads publish
at once comes in any order, and none of it is read again. -/
inductive Handled where
  | mode (mode : UInt8)
  | gpioEvent (signal : GpioSignal)
  | eventTrigger (cmd : EventTriggerCmd)
  | converted (device : Ads1115) (sample : Option Sample)

/-- A GPIO event starts the count if it is that of the trigger. -/
def trigger (s : ADS1115Driver) (signal : GpioSignal) : ADS1115Driver :=
  if signal = s.eventTrigger then { s with currentAdcSampleIndex := 0 } else s

def handle (s : ADS1115Driver) : Handled → ADS1115Driver
  | .mode mode => setAdcSamplingMode s mode
  | .gpioEvent signal => trigger s signal
  | .eventTrigger cmd => handleEventTrigger s cmd
  | .converted device none => { s with device := some device }
  | .converted device (some sample) => onSampleReady { s with device := some device } sample

def handleAll (s : ADS1115Driver) (handled : List Handled) : ADS1115Driver :=
  handled.foldl handle s

def Handled.section? : Handled → Option Section
  | .mode number => some (.mode number)
  | .gpioEvent signal => some (.gpioEvent signal)
  | .eventTrigger cmd => some (.eventTrigger cmd)
  | .converted _ none => none
  | .converted _ (some sample) =>
    if sample.channel = amplitude then some (.sample sample.voltage) else none

def sections (handled : List Handled) : List Section := handled.filterMap Handled.section?

/-- A conversion is asked for, or the driver is left as it is. -/
theorem sampleAdcEvent_handled {s s' : ADS1115Driver} {channel : UInt8} {answers : Answers}
    (h : sampleAdcEvent s channel answers = some s') :
    ∃ more, s' = handleAll s more ∧
      (more = [] ∨ ∃ device sample, more = [.converted device sample]) := by
  unfold sampleAdcEvent at h
  split at h
  · exact ⟨[], (Option.some.inj h).symm, .inl rfl⟩
  · split at h
    · exact ⟨[], (Option.some.inj h).symm, .inl rfl⟩
    · obtain ⟨⟨device, sample⟩, -, rfl⟩ := Option.map_eq_some_iff.mp h
      exact ⟨[.converted device sample], by cases sample <;> rfl, .inr ⟨device, sample, rfl⟩⟩

/-- A GPIO event goes through its section and then takes a sample. -/
theorem handleGpioEvent_handled {s s' : ADS1115Driver} {signal : GpioSignal} {answers : Answers}
    (h : handleGpioEvent s signal answers = some s') :
    ∃ more, s' = handleAll s (.gpioEvent signal :: more) ∧
      (more = [] ∨ ∃ device sample, more = [.converted device sample]) := by
  simp only [handleAll, List.foldl_cons, handle, trigger]
  rw [handleGpioEvent] at h
  split at h
  · next hsame =>
    rw [if_pos hsame]
    exact sampleAdcEvent_handled h
  · next hother =>
    rw [if_neg hother]
    exact ⟨[], (Option.some.inj h).symm, .inl rfl⟩

/-! ## What is published -/

def Publication.trace? : Publication → Option (List Binary32)
  | .sample _ => none
  | .trace event => some event.adcSampleBuffer

/-- The traces that were published, one after the other. -/
def ADS1115Driver.traces (s : ADS1115Driver) : List (List Binary32) :=
  s.published.filterMap Publication.trace?

@[simp] theorem traces_publish_sample (s : ADS1115Driver) (event : ADS1115Event) :
    (publish s (.sample event)).traces = s.traces := by
  rw [ADS1115Driver.traces, publish, List.filterMap_append]
  exact List.append_nil _

@[simp] theorem traces_publish_trace (s : ADS1115Driver) (event : AdcTraceEvent) :
    (publish s (.trace event)).traces = s.traces ++ [event.adcSampleBuffer] := by
  rw [ADS1115Driver.traces, publish, List.filterMap_append]
  rfl

theorem amplitudeSample_published (s : ADS1115Driver) (voltage : Binary32) :
    (amplitudeSample s voltage).1.published = s.published := by
  simp only [amplitudeSample]
  repeat' split
  all_goals rfl

/-- The driver when it is made, without a device or with one. -/
def start (deviceId : UInt32) (device : Option Ads1115) : ADS1115Driver where
  deviceId := deviceId
  device := device
  adcSamplingMode := if device.isNone then .disabled else .peak

/-! ## What has happened -/

/-- What has happened since the mode was set: the samples, and those after the last trigger. -/
structure History where
  mode : AdcSamplingMode
  signal : GpioSignal := .evtXor
  samples : List Binary32 := []
  afterTrigger : Option (List Binary32) := none
  deriving DecidableEq, Repr

def History.next (h : History) : Section → History
  | .mode mode =>
    match AdcSamplingMode.ofNumber mode with
    | none => h
    | some mode => { h with mode := mode, samples := [], afterTrigger := none }
  | .gpioEvent signal => if signal = h.signal then { h with afterTrigger := some [] } else h
  | .eventTrigger cmd => { h with signal := cmd.signal }
  | .sample voltage => { h with
      samples := h.samples ++ [voltage]
      afterTrigger := h.afterTrigger.map fun vs => vs ++ [voltage] }

/-- The history of the sections from the construction on. -/
def history (device : Option Ads1115) (sections : List Section) : History :=
  sections.foldl History.next { mode := if device.isNone then .disabled else .peak }

/-- The samples that are taken after a trigger. -/
def postTrigger : Nat := bufferSize - pretrigger

/-- The index counts the samples after the last trigger until the trace is complete. -/
def indexOf (afterTrigger : Option (List Binary32)) : Int :=
  match afterTrigger with
  | none => -1
  | some vs => if vs.length < postTrigger then vs.length else -1

/-- The latest samples, as many as the buffer has room for. -/
def latest (samples : List Binary32) : List Binary32 := samples.drop (samples.length - bufferSize)

/-- The driver goes by what has happened. -/
structure Follows (s : ADS1115Driver) (h : History) : Prop where
  mode_eq : s.adcSamplingMode = h.mode
  signal_eq : s.eventTrigger = h.signal
  buffer_trace : h.mode = .trace → s.adcSamplesBuffer = latest h.samples
  index_trace : h.mode = .trace → s.currentAdcSampleIndex = indexOf h.afterTrigger
  buffer_other : h.mode ≠ .trace → s.adcSamplesBuffer = []
  index_other : h.mode ≠ .trace → s.currentAdcSampleIndex = -1 ∨ s.currentAdcSampleIndex = 0

theorem follows_start (deviceId : UInt32) (device : Option Ads1115) :
    Follows (start deviceId device) (history device []) := by
  constructor
  · rfl
  · rfl
  · exact fun _ => rfl
  · exact fun _ => rfl
  · exact fun _ => rfl
  · exact fun _ => .inl rfl

/-! ## One section -/

theorem latest_length (samples : List Binary32) :
    (latest samples).length = min bufferSize samples.length := by
  rw [latest, List.length_drop]
  omega

/-- The buffer with another sample. -/
theorem pushSample_latest (samples : List Binary32) (voltage : Binary32) :
    pushSample (latest samples) voltage = latest (samples ++ [voltage]) := by
  have hle : samples.length - bufferSize ≤ samples.length := Nat.sub_le ..
  have hdrop : latest samples ++ [voltage] =
      (samples ++ [voltage]).drop (samples.length - bufferSize) := by
    rw [latest, List.drop_append_of_le_length hle]
  rw [pushSample, hdrop, List.drop_drop, latest_length, latest, List.length_append,
    List.length_singleton]
  congr 1
  omega

/-- A sample in trace mode. -/
theorem amplitudeSample_trace {s : ADS1115Driver} (hmode : s.adcSamplingMode = .trace)
    (voltage : Binary32) :
    amplitudeSample s voltage =
      if s.currentAdcSampleIndex ≥ 0 then
        if s.currentAdcSampleIndex + 1 ≥ (postTrigger : Int) then
          ({ s with
              adcSamplesBuffer := pushSample s.adcSamplesBuffer voltage
              currentAdcSampleIndex := -1 },
            decide (s.currentAdcSampleIndex = 0), pushSample s.adcSamplesBuffer voltage)
        else
          ({ s with
              adcSamplesBuffer := pushSample s.adcSamplesBuffer voltage
              currentAdcSampleIndex := s.currentAdcSampleIndex + 1 },
            decide (s.currentAdcSampleIndex = 0), [])
      else ({ s with adcSamplesBuffer := pushSample s.adcSamplesBuffer voltage },
        decide (s.currentAdcSampleIndex = 0), []) := by
  rw [amplitudeSample, hmode]
  rfl

/-- The trace that is due after the samples so far and the next one. -/
def due (h : History) (voltage : Binary32) : List Binary32 :=
  if h.mode = .trace ∧ h.afterTrigger.map List.length = some (postTrigger - 1) then
    latest (h.samples ++ [voltage])
  else []

variable {s : ADS1115Driver} {h : History}

/-- A sample in trace mode joins the buffer, and the index is what the history makes it. -/
theorem follows_trace (hf : Follows s h) (hmode : h.mode = .trace) {voltage : Binary32}
    {index : Int} (hindex : index = indexOf (h.next (.sample voltage)).afterTrigger) :
    Follows { s with
      adcSamplesBuffer := latest (h.samples ++ [voltage])
      currentAdcSampleIndex := index } (h.next (.sample voltage)) where
  mode_eq := hf.mode_eq
  signal_eq := hf.signal_eq
  buffer_trace _ := rfl
  index_trace _ := hindex
  buffer_other hother := absurd hmode hother
  index_other hother := absurd hmode hother

theorem follows_sample_trace (hf : Follows s h) (hmode : h.mode = .trace) (voltage : Binary32) :
    Follows (amplitudeSample s voltage).1 (h.next (.sample voltage)) ∧
      (amplitudeSample s voltage).2.2 = due h voltage := by
  have hpost : postTrigger = 40 := rfl
  have hbuffer : pushSample s.adcSamplesBuffer voltage = latest (h.samples ++ [voltage]) := by
    rw [hf.buffer_trace hmode, pushSample_latest]
  have hindex := hf.index_trace hmode
  rw [amplitudeSample_trace (hf.mode_eq.trans hmode), hbuffer, due]
  cases hafter : h.afterTrigger with
  | none =>
    rw [hafter] at hindex
    have hidle : ¬ s.currentAdcSampleIndex ≥ 0 := by
      rw [hindex]
      decide
    have hnext : (h.next (.sample voltage)).afterTrigger = none := by
      rw [History.next, hafter]
      rfl
    rw [if_neg hidle]
    refine ⟨follows_trace hf hmode ?_, ?_⟩
    · rw [hindex, hnext]
    · simp
  | some vs =>
    rw [hafter] at hindex
    have hnext : (h.next (.sample voltage)).afterTrigger = some (vs ++ [voltage]) := by
      rw [History.next, hafter]
      rfl
    have hlength : (vs ++ [voltage]).length = vs.length + 1 := List.length_append
    by_cases hcounting : vs.length < postTrigger
    · have hcount : s.currentAdcSampleIndex = vs.length := hindex.trans (if_pos hcounting)
      have hidle : s.currentAdcSampleIndex ≥ 0 := by omega
      rw [if_pos hidle, hcount]
      by_cases hlast : (vs.length : Int) + 1 ≥ (postTrigger : Int)
      · -- the last sample of the trace
        have hfull : vs.length = postTrigger - 1 := by omega
        rw [if_pos hlast]
        refine ⟨follows_trace hf hmode ?_, ?_⟩
        · rw [hnext, indexOf, if_neg (by omega)]
        · simp [hmode, hfull]
      · have hmore : vs.length ≠ postTrigger - 1 := by omega
        rw [if_neg hlast]
        refine ⟨follows_trace hf hmode ?_, ?_⟩
        · rw [hnext, indexOf, if_pos (by omega), hlength]
          exact (Nat.cast_succ vs.length).symm
        · simp [hmore]
    · have hdone : s.currentAdcSampleIndex = -1 := hindex.trans (if_neg hcounting)
      have hidle : ¬ s.currentAdcSampleIndex ≥ 0 := by omega
      have hmore : vs.length ≠ postTrigger - 1 := by omega
      rw [if_neg hidle]
      refine ⟨follows_trace hf hmode ?_, ?_⟩
      · rw [hdone, hnext, indexOf, if_neg (by omega)]
      · simp [hmore]

/-- In another mode nothing is kept. -/
theorem follows_sample_other (hf : Follows s h) (hmode : h.mode ≠ .trace) (voltage : Binary32) :
    Follows (amplitudeSample s voltage).1 (h.next (.sample voltage)) ∧
      (amplitudeSample s voltage).2.2 = [] := by
  cases hother : h.mode with
  | trace => exact absurd hother hmode
  | peak =>
    have hpeak : amplitudeSample s voltage = ({ s with currentAdcSampleIndex := 0 }, true, []) := by
      rw [amplitudeSample, hf.mode_eq, hother]
    rw [hpeak]
    exact ⟨⟨hf.mode_eq, hf.signal_eq, fun h' => absurd h' hmode, fun h' => absurd h' hmode,
      fun _ => hf.buffer_other hmode, fun _ => .inr rfl⟩, rfl⟩
  | disabled =>
    have hdisabled : amplitudeSample s voltage = (s, false, []) := by
      rw [amplitudeSample, hf.mode_eq, hother]
    rw [hdisabled]
    exact ⟨⟨hf.mode_eq, hf.signal_eq, fun h' => absurd h' hmode, fun h' => absurd h' hmode,
      fun _ => hf.buffer_other hmode, fun _ => hf.index_other hmode⟩, rfl⟩

theorem follows_sample (hf : Follows s h) (voltage : Binary32) :
    Follows (amplitudeSample s voltage).1 (h.next (.sample voltage)) ∧
      (amplitudeSample s voltage).2.2 = due h voltage := by
  by_cases hmode : h.mode = .trace
  · exact follows_sample_trace hf hmode voltage
  · have hnone : due h voltage = [] := if_neg fun hdue => hmode hdue.1
    rw [hnone]
    exact follows_sample_other hf hmode voltage

theorem follows_mode (hf : Follows s h) (mode : UInt8) :
    Follows (setAdcSamplingMode s mode) (h.next (.mode mode)) := by
  rw [setAdcSamplingMode, History.next]
  cases AdcSamplingMode.ofNumber mode with
  | none => exact hf
  | some mode =>
    exact ⟨rfl, hf.signal_eq, fun _ => rfl, fun _ => rfl, fun _ => rfl, fun _ => .inl rfl⟩

theorem follows_trigger (hf : Follows s h) (signal : GpioSignal) :
    Follows (trigger s signal) (h.next (.gpioEvent signal)) := by
  rw [trigger, History.next]
  by_cases hsame : signal = s.eventTrigger
  · rw [if_pos hsame, if_pos (hsame.trans hf.signal_eq)]
    exact ⟨hf.mode_eq, hf.signal_eq, hf.buffer_trace, fun _ => rfl, hf.buffer_other,
      fun _ => .inr rfl⟩
  · rw [if_neg hsame, if_neg fun hsignal => hsame (hsignal.trans hf.signal_eq.symm)]
    exact hf

theorem Follows.publish (hf : Follows s h) (event : Publication) : Follows (publish s event) h :=
  ⟨hf.mode_eq, hf.signal_eq, hf.buffer_trace, hf.index_trace, hf.buffer_other, hf.index_other⟩

theorem Follows.device (hf : Follows s h) (device : Ads1115) :
    Follows { s with device := some device } h :=
  ⟨hf.mode_eq, hf.signal_eq, hf.buffer_trace, hf.index_trace, hf.buffer_other, hf.index_other⟩

/-! ## One handler -/

/-- The traces that a section leads to. -/
def dueTrace (h : History) : Section → List (List Binary32)
  | .sample voltage => if due h voltage = [] then [] else [due h voltage]
  | _ => []

theorem onSampleReady_amplitude (hf : Follows s h) {sample : Sample}
    (hchannel : sample.channel = amplitude) :
    Follows (onSampleReady s sample) (h.next (.sample sample.voltage)) ∧
      (onSampleReady s sample).traces = s.traces ++ dueTrace h (.sample sample.voltage) := by
  obtain ⟨hfollows, htrace⟩ := follows_sample hf sample.voltage
  have hpublished := amplitudeSample_published s sample.voltage
  simp only [onSampleReady, dueTrace]
  rw [if_neg (not_not.mpr hchannel), ← htrace]
  generalize amplitudeSample s sample.voltage = result at hfollows hpublished
  obtain ⟨s', publishSample, trace⟩ := result
  have hold : s'.traces = s.traces := congrArg (List.filterMap Publication.trace?) hpublished
  dsimp only at hfollows ⊢
  by_cases hnone : trace = []
  · rw [if_neg (not_not.mpr hnone), if_pos hnone, List.append_nil]
    cases publishSample with
    | false => exact ⟨hfollows, hold⟩
    | true => exact ⟨hfollows.publish _, (traces_publish_sample _ _).trans hold⟩
  · rw [if_pos hnone, if_neg hnone, traces_publish_trace]
    cases publishSample with
    | false => exact ⟨hfollows.publish _, congrArg (· ++ [trace]) hold⟩
    | true =>
      exact ⟨(hfollows.publish _).publish _,
        congrArg (· ++ [trace]) ((traces_publish_sample _ _).trans hold)⟩

/-- What a handler does to the driver and publishes goes by its section. -/
theorem handle_spec (hf : Follows s h) (x : Handled) :
    Follows (handle s x) (x.section?.elim h h.next) ∧
      (handle s x).traces = s.traces ++ x.section?.elim [] (dueTrace h) := by
  cases x with
  | mode mode =>
    refine ⟨follows_mode hf mode, ?_⟩
    rw [handle, setAdcSamplingMode]
    split <;> exact (List.append_nil _).symm
  | gpioEvent signal =>
    refine ⟨follows_trigger hf signal, ?_⟩
    rw [handle, trigger]
    split <;> exact (List.append_nil _).symm
  | eventTrigger cmd =>
    exact ⟨⟨hf.mode_eq, rfl, hf.buffer_trace, hf.index_trace, hf.buffer_other, hf.index_other⟩,
      (List.append_nil _).symm⟩
  | converted device sample =>
    cases sample with
    | none => exact ⟨hf.device device, (List.append_nil _).symm⟩
    | some sample =>
      rw [handle, Handled.section?]
      by_cases hchannel : sample.channel = amplitude
      · rw [if_pos hchannel]
        exact onSampleReady_amplitude (hf.device device) hchannel
      · rw [if_neg hchannel, onSampleReady, if_pos hchannel]
        exact ⟨(hf.device device).publish _,
          (traces_publish_sample _ _).trans (List.append_nil _).symm⟩

theorem sections_cons (x : Handled) (handled : List Handled) :
    sections (x :: handled) = x.section?.toList ++ sections handled := by
  rw [sections, List.filterMap_cons]
  cases x.section? <;> rfl

/-! ## All handlers -/

/-- The traces that the sections lead to, one after the other. -/
def dueTraces : History → List Section → List (List Binary32)
  | _, [] => []
  | h, a :: rest => dueTrace h a ++ dueTraces (h.next a) rest

theorem handleAll_spec (hf : Follows s h) (handled : List Handled) :
    Follows (handleAll s handled) ((sections handled).foldl History.next h) ∧
      (handleAll s handled).traces = s.traces ++ dueTraces h (sections handled) := by
  induction handled generalizing s h with
  | nil => exact ⟨hf, (List.append_nil _).symm⟩
  | cons x handled ih =>
    obtain ⟨hfollows, htraces⟩ := handle_spec hf x
    obtain ⟨hlast, hlater⟩ := ih hfollows
    rw [handleAll, List.foldl_cons, ← handleAll, sections_cons, hlater, htraces]
    cases hsection : x.section? with
    | none =>
      rw [hsection] at hlast
      exact ⟨hlast, by simp⟩
    | some a =>
      rw [hsection] at hlast
      exact ⟨hlast, List.append_assoc ..⟩

theorem follows_handleAll (deviceId : UInt32) (device : Option Ads1115) (handled : List Handled) :
    Follows (handleAll (start deviceId device) handled) (history device (sections handled)) :=
  (handleAll_spec (follows_start deviceId device) handled).1

/-- Index and buffer stay in their bounds. -/
theorem Follows.bounds (hf : Follows s h) :
    (-1 ≤ s.currentAdcSampleIndex ∧ s.currentAdcSampleIndex < postTrigger) ∧
      s.adcSamplesBuffer.length ≤ bufferSize := by
  have hpost : postTrigger = 40 := rfl
  by_cases hmode : h.mode = .trace
  · rw [hf.index_trace hmode, hf.buffer_trace hmode, latest_length]
    refine ⟨?_, Nat.min_le_left ..⟩
    cases h.afterTrigger with
    | none => decide
    | some vs =>
      rw [indexOf]
      split <;> omega
  · rw [hf.buffer_other hmode]
    refine ⟨?_, Nat.zero_le _⟩
    have hindex := hf.index_other hmode
    omega

/-! ## From one trigger to the next -/

/-- Neither a mode is set nor does the trigger come. -/
def Undisturbed : GpioSignal → List Section → Prop
  | _, [] => True
  | signal, .mode mode :: rest => AdcSamplingMode.ofNumber mode = none ∧ Undisturbed signal rest
  | signal, .gpioEvent event :: rest => event ≠ signal ∧ Undisturbed signal rest
  | _, .eventTrigger cmd :: rest => Undisturbed cmd.signal rest
  | signal, .sample _ :: rest => Undisturbed signal rest

instance Undisturbed.decidable : ∀ signal sections, Decidable (Undisturbed signal sections)
  | _, [] => isTrue trivial
  | signal, .mode _ :: rest =>
    have := Undisturbed.decidable signal rest
    inferInstanceAs (Decidable (_ ∧ _))
  | signal, .gpioEvent _ :: rest =>
    have := Undisturbed.decidable signal rest
    inferInstanceAs (Decidable (_ ∧ _))
  | _, .eventTrigger cmd :: rest => Undisturbed.decidable cmd.signal rest
  | signal, .sample _ :: rest => Undisturbed.decidable signal rest

/-- The number of samples. -/
def sampleCount (sections : List Section) : Nat :=
  sections.countP fun
    | .sample _ => true
    | _ => false

/-- In trace mode a trace is due with the last sample that a trigger waits for. -/
theorem due_ne_nil_iff (hmode : h.mode = .trace) {vs : List Binary32}
    (hafter : h.afterTrigger = some vs) (voltage : Binary32) :
    due h voltage ≠ [] ↔ vs.length = postTrigger - 1 := by
  rw [due]
  constructor
  · intro hne
    by_contra hfull
    refine hne (if_neg ?_)
    rintro ⟨-, hlast⟩
    rw [hafter] at hlast
    exact hfull (Option.some.inj hlast)
  · intro hfull
    rw [if_pos ⟨hmode, by rw [hafter]; exact congrArg some hfull⟩]
    refine List.ne_nil_of_length_pos ?_
    rw [latest_length, List.length_append, List.length_singleton]
    exact lt_min (by decide) (Nat.succ_pos _)

/-- While nothing disturbs, a trace comes with the fortieth sample after the trigger, and only
then. -/
theorem dueTraces_undisturbed (hmode : h.mode = .trace) {vs : List Binary32}
    (hafter : h.afterTrigger = some vs) {rest : List Section} (hrest : Undisturbed h.signal rest) :
    (dueTraces h rest).length =
      if vs.length < postTrigger ∧ postTrigger ≤ vs.length + sampleCount rest then 1 else 0 := by
  induction rest generalizing h vs with
  | nil => exact (if_neg (by rintro ⟨hlt, hle⟩; exact absurd hlt (not_lt.mpr hle))).symm
  | cons a rest ih =>
    rw [dueTraces, List.length_append]
    cases a with
    | mode mode =>
      obtain ⟨hinvalid, hrest⟩ := hrest
      have hsame : h.next (.mode mode) = h := by
        rw [History.next, hinvalid]
      rw [hsame, ih hmode hafter hrest]
      exact Nat.zero_add _
    | gpioEvent signal =>
      obtain ⟨hother, hrest⟩ := hrest
      have hsame : h.next (.gpioEvent signal) = h := if_neg hother
      rw [hsame, ih hmode hafter hrest]
      exact Nat.zero_add _
    | eventTrigger cmd =>
      have hlater := @ih (h.next (.eventTrigger cmd)) hmode vs hafter hrest
      rw [hlater]
      exact Nat.zero_add _
    | sample voltage =>
      have hnew : (h.next (.sample voltage)).afterTrigger = some (vs ++ [voltage]) := by
        rw [History.next, hafter]
        rfl
      have hlength : (vs ++ [voltage]).length = vs.length + 1 := List.length_append
      have hcount : sampleCount (.sample voltage :: rest) = sampleCount rest + 1 :=
        List.countP_cons_of_pos rfl
      have hlater := @ih (h.next (.sample voltage)) hmode _ hnew hrest
      have hpost : postTrigger = 40 := rfl
      have hdue := due_ne_nil_iff hmode hafter voltage
      rw [hlater, hlength, hcount, dueTrace]
      by_cases hfull : vs.length = postTrigger - 1
      · rw [if_neg (hdue.mpr hfull), List.length_singleton, if_neg (by omega), if_pos (by omega)]
      · have hnone : due h voltage = [] := by
          by_contra hne
          exact hfull (hdue.mp hne)
        rw [if_pos hnone, List.length_nil, Nat.zero_add]
        congr 1
        refine propext ?_
        omega

/-- What came after the last trigger is the end of what came since the mode was set. -/
theorem afterTrigger_suffix (device : Option Ads1115) (sections : List Section)
    {vs : List Binary32} (hafter : (history device sections).afterTrigger = some vs) :
    vs <:+ (history device sections).samples := by
  induction sections using List.reverseRecOn generalizing vs with
  | nil => cases hafter
  | append_singleton sections a ih =>
    rw [history, List.foldl_append] at hafter ⊢
    change ((history device sections).next a).afterTrigger = some vs at hafter
    change vs <:+ ((history device sections).next a).samples
    cases a with
    | mode mode =>
      rw [History.next] at hafter ⊢
      cases hmode : AdcSamplingMode.ofNumber mode with
      | none =>
        rw [hmode] at hafter
        exact ih hafter
      | some mode =>
        rw [hmode] at hafter
        cases hafter
    | gpioEvent signal =>
      rw [History.next] at hafter ⊢
      by_cases hsame : signal = (history device sections).signal
      · rw [if_pos hsame] at hafter
        rw [← Option.some.inj hafter]
        exact List.nil_suffix
      · rw [if_neg hsame] at hafter ⊢
        exact ih hafter
    | eventTrigger cmd => exact ih hafter
    | sample voltage =>
      obtain ⟨before, hbefore, rfl⟩ := Option.map_eq_some_iff.mp hafter
      exact List.suffix_append_self_iff.mpr (ih hbefore)

/-- A trace that comes with a sample: the latest samples of the trace mode, the last forty of
them taken after the last trigger. -/
structure FromTrigger (h : History) (voltage : Binary32) (trace : List Binary32) : Prop where
  mode : h.mode = .trace
  recent : trace <:+ h.samples ++ [voltage]
  length : trace.length = min 50 (h.samples.length + 1)
  after : ∃ vs, (h.next (.sample voltage)).afterTrigger = some vs ∧ vs.length = 40 ∧ vs <:+ trace

theorem due_fromTrigger {device : Option Ads1115} {sections : List Section} {voltage : Binary32}
    (hne : due (history device sections) voltage ≠ []) :
    FromTrigger (history device sections) voltage (due (history device sections) voltage) := by
  have hdue : (history device sections).mode = .trace ∧
      (history device sections).afterTrigger.map List.length = some (postTrigger - 1) := by
    by_contra hnot
    exact hne (if_neg hnot)
  have hlatest : due (history device sections) voltage =
      latest ((history device sections).samples ++ [voltage]) := if_pos hdue
  obtain ⟨vs, hafter, hlength⟩ := Option.map_eq_some_iff.mp hdue.2
  have hlengths : (latest ((history device sections).samples ++ [voltage])).length =
      min 50 ((history device sections).samples.length + 1) := by
    rw [latest_length, List.length_append, List.length_singleton]
    rfl
  have hsuffix : vs ++ [voltage] <:+ (history device sections).samples ++ [voltage] :=
    List.suffix_append_self_iff.mpr (afterTrigger_suffix device sections hafter)
  have hforty : (vs ++ [voltage]).length = 40 := by
    rw [List.length_append, List.length_singleton, hlength]
    rfl
  rw [hlatest]
  refine ⟨hdue.1, List.drop_suffix .., hlengths, vs ++ [voltage], ?_, hforty, ?_⟩
  · rw [History.next, hafter]
    rfl
  · refine List.suffix_of_suffix_length_le hsuffix (List.drop_suffix ..) ?_
    have hle := hsuffix.length_le
    rw [hforty, List.length_append, List.length_singleton] at hle
    rw [hforty, hlengths]
    omega

/-- A trace that was published came with a sample of the amplitude. -/
theorem published_fromTrigger (deviceId : UInt32) (device : Option Ads1115)
    (handled : List Handled) :
    ∀ trace ∈ (handleAll (start deviceId device) handled).traces,
      ∃ before device' sample after,
        handled = before ++ .converted device' (some sample) :: after ∧
          sample.channel = amplitude ∧
          FromTrigger (history device (sections before)) sample.voltage trace := by
  induction handled using List.reverseRecOn with
  | nil =>
    intro trace htrace
    cases htrace
  | append_singleton handled x ih =>
    intro trace htrace
    rw [handleAll, List.foldl_append, List.foldl_cons, List.foldl_nil, ← handleAll,
      (handle_spec (follows_handleAll deviceId device handled) x).2] at htrace
    rcases List.mem_append.mp htrace with hold | hnew
    · obtain ⟨before, device', sample, after, rfl, hsample⟩ := ih trace hold
      exact ⟨before, device', sample, after ++ [x], List.append_assoc .., hsample⟩
    · cases x with
      | mode mode | gpioEvent signal | eventTrigger cmd => cases hnew
      | converted device' sample =>
        cases sample with
        | none => cases hnew
        | some sample =>
          rw [Handled.section?] at hnew
          by_cases hchannel : sample.channel = amplitude
          · rw [if_pos hchannel, Option.elim_some, dueTrace] at hnew
            split at hnew
            · cases hnew
            · next hne =>
              rw [List.mem_singleton.mp hnew]
              exact ⟨handled, device', sample, [], rfl, hchannel, due_fromTrigger hne⟩
          · rw [if_neg hchannel] at hnew
            cases hnew

/-- A trigger in trace mode that is followed by enough samples yields one trace. -/
theorem dueTraces_trigger (hmode : h.mode = .trace) {rest : List Section}
    (hrest : Undisturbed h.signal rest) (hcount : 40 ≤ sampleCount rest) :
    (dueTraces h (.gpioEvent h.signal :: rest)).length = 1 := by
  have hnext : h.next (.gpioEvent h.signal) = { h with afterTrigger := some [] } := if_pos rfl
  have hpost : postTrigger = 40 := rfl
  rw [dueTraces, hnext]
  have hlength := @dueTraces_undisturbed { h with afterTrigger := some [] } hmode [] rfl rest hrest
  exact hlength.trans (if_pos ⟨by decide, by rw [List.length_nil, hpost]; omega⟩)

/-- **One trace for a trigger.** In every order of what the handlers do the index and the buffer
stay in their bounds; a trace that is published holds the latest samples of the trace mode, the
last forty of them taken after the last trigger; a trigger that is followed by forty samples
before anything disturbs them yields one trace; and a GPIO event goes through its section and
a conversion. -/
theorem traces_correct (deviceId : UInt32) (device : Option Ads1115) (handled : List Handled) :
    let s := handleAll (start deviceId device) handled
    let h := history device (sections handled)
    (-1 ≤ s.currentAdcSampleIndex ∧ s.currentAdcSampleIndex < 40) ∧
      s.adcSamplesBuffer.length ≤ 50 ∧
      (∀ trace ∈ s.traces, ∃ before device' sample after,
        handled = before ++ .converted device' (some sample) :: after ∧
          sample.channel = amplitude ∧
          FromTrigger (history device (sections before)) sample.voltage trace) ∧
      (∀ rest, h.mode = .trace → Undisturbed h.signal (sections rest) →
        40 ≤ sampleCount (sections rest) →
        ∃ trace, (handleAll s (.gpioEvent h.signal :: rest)).traces = s.traces ++ [trace]) ∧
      ∀ signal answers s', handleGpioEvent s signal answers = some s' →
        ∃ more, s' = handleAll s (.gpioEvent signal :: more) ∧
          (more = [] ∨ ∃ device sample, more = [.converted device sample]) := by
  intro s h
  have hf : Follows s h := follows_handleAll deviceId device handled
  obtain ⟨hindex, hbuffer⟩ := hf.bounds
  refine ⟨hindex, hbuffer, published_fromTrigger deviceId device handled, ?_, ?_⟩
  · intro rest hmode hrest hcount
    obtain ⟨trace, htrace⟩ := List.length_eq_one_iff.mp (dueTraces_trigger hmode hrest hcount)
    refine ⟨trace, ?_⟩
    rw [(handleAll_spec hf _).2, sections_cons]
    exact congrArg (s.traces ++ ·) htrace
  · intro signal answers s' hevent
    exact handleGpioEvent_handled hevent

/-- Forty samples of the amplitude. -/
def fortySamples : List Handled :=
  List.replicate 40 (.converted {} (some ⟨0, 1000, ⟨0⟩, ⟨0⟩, amplitude⟩))

theorem traces_correct_forty :
    let s := handleAll (start 0 (some {})) [.mode 2]
    ∃ trace, (handleAll s (.gpioEvent .evtXor :: fortySamples)).traces = s.traces ++ [trace] := by
  obtain ⟨-, -, -, hone, -⟩ := traces_correct 0 (some {}) [.mode 2]
  exact hone fortySamples (by decide +kernel) (by decide +kernel) (by decide +kernel)

end MuonDetector.Drivers.Adc
