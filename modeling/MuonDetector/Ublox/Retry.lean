import MuonDetector.Ublox.Driver

/-!
# Commands before the handshake is over

A message that the state does not allow is refused, and refusing it starts the timer
that stands for lost connections. The handler of the timer opens the port, which
nothing has closed, so the first completion of a wait ends the io thread. Nothing
keeps the refused message. A run in which no message is refused and no read fails
does not come to that.
-/

namespace MuonDetector.Ublox.Retry

open MuonDetector.Library MuonDetector.Library.Machine
open MuonDetector.Ublox.Message MuonDetector.Ublox.Events MuonDetector.Ublox.Serial
open MuonDetector.Ublox.Commands MuonDetector.Ublox.Driver

/-- What commands, read errors and completions of the timer do no harm to. -/
structure Harmless (d : SerialDriver) : Prop where
  neverReopened : d.crashed ≠ some .alreadyOpen
  oneRead : d.reads ≤ 1
  notLost : d.initState = .ready → ∀ msg ∈ d.refused, (.ready, msg) ∈ d.sent

section

variable (signedChar : Bool) (settings : Settings)

/-- Every message of a command is allowed in the state that the command leaves. -/
def commandAllowed (d : SerialDriver) (cmd : Command) : Bool :=
  match plan settings d cmd with
  | .ok p => (messages p.2).all (isAllowed p.1.toSerialUblox)
  | .error _ => true

/-- The step does not start the timer. -/
def leavesTimer (d : SerialDriver) : Label → Bool
  | .command cmd => commandAllowed settings d cmd
  | .readError => false
  | .ackAck _ _ => true
  | .ackNak _ _ => true
  | .txTask => true
  | .writeDone => true
  | .writeError => true
  | .readDone => true
  | .retry => true

def LeavesTimer (as : List Label) : Prop :=
  Meets (step signedChar settings) (fun d l => leavesTimer settings d l = true)
    (start signedChar settings) as

/-- What the timer has to do with the run so far. -/
structure TimerInvariant (as : List Label) (d : SerialDriver) : Prop where
  reached : run (step signedChar settings) (start signedChar settings) as = some d
  isOpen : d.isOpen = true
  oneRead : d.reads ≤ 1
  unfired : d.crashed = none → d.fired = 0
  left : LeavesTimer signedChar settings as →
    d.retries = 0 ∧ d.refused = [] ∧ d.crashed ≠ some .alreadyOpen
  started : d.crashed = none → ¬LeavesTimer signedChar settings as → 0 < d.retries

theorem TimerInvariant.start :
    TimerInvariant signedChar settings [] (start signedChar settings) := by
  have hallowed : isAllowed (startAsyncRead { isOpen := true }).toSerialUblox
      (protSelCmd settings.baud) = true := rfl
  have hstart : Driver.start signedChar settings =
      perform signedChar (startAsyncRead { isOpen := true })
        (.enqueue (protSelCmd settings.baud) true) := rfl
  have hdone := perform_performed signedChar (startAsyncRead { isOpen := true })
    (.enqueue (protSelCmd settings.baud) true)
  have hmessages : messages [.enqueue (protSelCmd settings.baud) true] =
    [protSelCmd settings.baud] := rfl
  have hconnection := hdone.connection
  have hrefused := hdone.refused
  have hretries := hdone.retries
  rw [← hstart] at hconnection hrefused hretries
  simp only [Prod.mk.injEq] at hconnection
  simp only [hmessages, List.filter_cons, hallowed, Bool.not_true] at hrefused
  obtain ⟨hopen, hreads, hfired, hcrashed⟩ := hconnection
  refine ⟨rfl, hopen, hreads.le, fun _ => hfired, fun _ => ⟨?_, hrefused, ?_⟩, ?_⟩
  · rw [hrefused] at hretries
    exact hretries
  · rw [hcrashed]
    exact fun h => by cases h
  · intro _ hnot
    exact absurd trivial hnot

/-- What one step does to the timer and what was refused. -/
structure StepEffect (d : SerialDriver) (l : Label) (d' : SerialDriver) : Prop where
  isOpen : d'.isOpen = true
  reads : d'.reads ≤ 1
  unfired : d'.crashed = none → d'.fired = d.fired
  left : leavesTimer settings d l = true → l ≠ .retry →
    d'.retries = d.retries ∧ d'.refused = d.refused ∧ d'.crashed ≠ some .alreadyOpen
  started : d'.crashed = none → d.retries ≤ d'.retries ∧
    (leavesTimer settings d l = false → d.retries < d'.retries)

theorem command_effect {d d' : SerialDriver} {cmd : Command} (hopen : d.isOpen = true)
    (hreads : d.reads ≤ 1) (hs : step signedChar settings d (.command cmd) = some d') :
    StepEffect settings d (.command cmd) d' := by
  have halive := step_alive signedChar settings hs
  obtain ⟨p, hp, rfl⟩ | ⟨crash, hp, rfl⟩ := step_command signedChar settings hs
  · obtain ⟨hopen₁, hreads₁, hfired₁, hcrashed₁, -, -, -, -, -, hrefused₁, hretries₁⟩ :=
      plan_untouched settings hp
    have hdone : Performed p.1 p.2 (p.run signedChar) := performAll_performed signedChar p.1 p.2
    have hconnection := hdone.connection
    simp only [Prod.mk.injEq] at hconnection
    obtain ⟨hopen₂, hreads₂, hfired₂, hcrashed₂⟩ := hconnection
    have hrefused := hdone.refused
    have hretries := hdone.retries
    have hleaves : leavesTimer settings d (.command cmd) =
        (messages p.2).all (isAllowed p.1.toSerialUblox) := by
      rw [leavesTimer, commandAllowed, hp]
    refine ⟨?_, ?_, ?_, ?_, ?_⟩
    · rw [hopen₂, hopen₁, hopen]
    · rw [hreads₂, hreads₁]
      exact hreads
    · intro _
      rw [hfired₂, hfired₁]
    · intro hall _
      rw [hleaves, List.all_eq_true] at hall
      have hnone : (messages p.2).filter (!isAllowed p.1.toSerialUblox ·) = [] := by
        rw [List.filter_eq_nil_iff]
        intro msg hmsg
        simp [hall msg hmsg]
      rw [hnone, List.append_nil, hrefused₁] at hrefused
      rw [hrefused, hrefused₁, hretries₁] at hretries
      refine ⟨Nat.add_right_cancel hretries, hrefused, ?_⟩
      rw [hcrashed₂, hcrashed₁, halive]
      exact fun h => by cases h
    · intro _
      have hlen := congrArg List.length hrefused
      rw [List.length_append] at hlen
      refine ⟨by omega, ?_⟩
      intro hsome
      rw [hleaves, List.all_eq_false] at hsome
      obtain ⟨msg, hmsg, hnot⟩ := hsome
      have hpos : 0 < ((messages p.2).filter (!isAllowed p.1.toSerialUblox ·)).length := by
        apply List.length_pos_of_mem
        exact List.mem_filter.mpr ⟨hmsg, by simpa using hnot⟩
      omega
  · have hfault : crash ≠ .alreadyOpen := by
      rintro rfl
      exact plan_ne_alreadyOpen settings hp
    refine ⟨hopen, hreads, fun _ => rfl, fun _ _ => ⟨rfl, rfl, ?_⟩, fun h => by cases h⟩
    intro h
    exact hfault (Option.some.inj h)

/-- A step that neither the port nor the timer nor what was refused takes part in. -/
theorem quiet_effect {d d' : SerialDriver} {l : Label} (hopen : d.isOpen = true)
    (hreads : d.reads ≤ 1) (halive : d.crashed = none) (hleaves : leavesTimer settings d l = true)
    (hsame : (d'.isOpen, d'.reads, d'.fired, d'.retries, d'.refused, d'.crashed) =
      (d.isOpen, d.reads, d.fired, d.retries, d.refused, d.crashed)) :
    StepEffect settings d l d' := by
  simp only [Prod.mk.injEq] at hsame
  obtain ⟨hopen', hreads', hfired', hretries', hrefused', hcrashed'⟩ := hsame
  refine ⟨?_, ?_, fun _ => hfired', fun _ _ => ⟨hretries', hrefused', ?_⟩,
    fun _ => ⟨hretries'.ge, ?_⟩⟩
  · rw [hopen', hopen]
  · rw [hreads']
    exact hreads
  · rw [hcrashed', halive]
    exact fun h => by cases h
  · intro hnot
    rw [hleaves] at hnot
    cases hnot

theorem step_effect {d d' : SerialDriver} {l : Label} (hopen : d.isOpen = true)
    (hreads : d.reads ≤ 1) (hs : step signedChar settings d l = some d') :
    StepEffect settings d l d' := by
  have halive := step_alive signedChar settings hs
  have hno : d.crashed ≠ some .alreadyOpen := by
    rw [halive]
    exact fun h => by cases h
  cases l with
  | command cmd => exact command_effect signedChar settings hopen hreads hs
  | ackAck event read =>
    rw [step_ackAck signedChar settings hs]
    refine quiet_effect settings hopen hreads halive rfl ?_
    rw [handleAckAck]
    split_ifs <;> rfl
  | ackNak event read =>
    rw [step_ackNak signedChar settings hs]
    exact quiet_effect settings hopen hreads halive rfl rfl
  | txTask =>
    obtain ⟨data, rest, -, rfl⟩ := step_txTask signedChar settings hs
    refine quiet_effect settings hopen hreads halive rfl ?_
    rw [onTxTask]
    cases d.txQueue <;> rfl
  | writeDone =>
    rw [(step_writeDone signedChar settings hs).2]
    refine quiet_effect settings hopen hreads halive rfl ?_
    rw [onWriteDone]
    cases d.txQueue with
    | nil => rfl
    | cons data rest => cases rest <;> rfl
  | writeError =>
    rw [(step_writeError signedChar settings hs).2]
    exact quiet_effect settings hopen hreads halive rfl rfl
  | readDone =>
    obtain ⟨hpos, rfl⟩ := step_readDone signedChar settings hs
    have hone : (onReadDone d).reads = d.reads - 1 + 1 := rfl
    refine ⟨hopen, by omega, fun _ => rfl, fun _ _ => ⟨rfl, rfl, hno⟩,
      fun _ => ⟨Nat.le_refl _, fun h => by cases h⟩⟩
  | readError =>
    obtain ⟨hpos, rfl⟩ := step_readError signedChar settings hs
    have hnone : (onReadError d).reads = d.reads - 1 := rfl
    exact ⟨hopen, by omega, fun _ => rfl, fun h => (by cases h),
      fun _ => ⟨Nat.le_succ _, fun _ => Nat.lt_succ_self _⟩⟩
  | retry =>
    obtain ⟨hpos, rfl⟩ := step_retry signedChar settings hs
    rw [onRetry_open signedChar settings hopen]
    exact ⟨hopen, hreads, fun h => (by cases h), fun _ h => absurd rfl h, fun h => (by cases h)⟩

theorem TimerInvariant.step {as : List Label} {d d' : SerialDriver} {l : Label}
    (h : TimerInvariant signedChar settings as d) (hs : step signedChar settings d l = some d') :
    TimerInvariant signedChar settings (as ++ [l]) d' := by
  have halive := step_alive signedChar settings hs
  have heffect := step_effect signedChar settings h.isOpen h.oneRead hs
  have hmeets := meets_snoc (P := fun d l => leavesTimer settings d l = true) (a := l) h.reached
  refine ⟨run_snoc h.reached hs, heffect.isOpen, heffect.reads, ?_, ?_, ?_⟩
  · intro halive'
    rw [heffect.unfired halive', h.unfired halive]
  · intro hleft
    obtain ⟨hbefore, hl⟩ := hmeets.mp hleft
    obtain ⟨hretries, hrefused, -⟩ := h.left hbefore
    have hl' : l ≠ .retry := by
      rintro rfl
      have hpos := (step_retry signedChar settings hs).1
      omega
    obtain ⟨hretries', hrefused', hcrashed'⟩ := heffect.left hl hl'
    exact ⟨hretries'.trans hretries, hrefused'.trans hrefused, hcrashed'⟩
  · intro halive' hnot
    obtain ⟨hle, hlt⟩ := heffect.started halive'
    by_cases hbefore : LeavesTimer signedChar settings as
    · have hl : leavesTimer settings d l = false := by
        by_contra hl
        exact hnot (hmeets.mpr ⟨hbefore, by simpa using hl⟩)
      exact (Nat.zero_le _).trans_lt (hlt hl)
    · exact (h.started halive hbefore).trans_le hle

theorem timerInvariant {as : List Label} {d : SerialDriver}
    (hrun : run (Driver.step signedChar settings) (Driver.start signedChar settings) as = some d) :
    TimerInvariant signedChar settings as d :=
  run_history (fun _ _ _ _ hI hs => hI.step signedChar settings hs)
    (TimerInvariant.start signedChar settings) hrun

/-- **Early commands are harmless while nothing starts the timer, and only then.** Once
something has, the next completion of a wait ends the io thread. -/
theorem commands_harmless {as : List Label} {d : SerialDriver}
    (hrun : run (Driver.step signedChar settings) (Driver.start signedChar settings) as = some d) :
    (LeavesTimer signedChar settings as → Harmless d) ∧
      (¬LeavesTimer signedChar settings as → d.crashed = none →
        ∃ d', Driver.step signedChar settings d .retry = some d' ∧ ¬Harmless d') := by
  have h := timerInvariant signedChar settings hrun
  constructor
  · intro hleft
    obtain ⟨-, hrefused, hcrashed⟩ := h.left hleft
    refine ⟨hcrashed, h.oneRead, ?_⟩
    intro _ msg hmsg
    rw [hrefused] at hmsg
    cases hmsg
  · intro hnot halive
    have hpos := h.started halive hnot
    have hfired := h.unfired halive
    refine ⟨onRetry signedChar settings d, ?_, ?_⟩
    · simp [Driver.step, halive, hfired, hpos]
    · intro hharmless
      have hopen : (onRetry signedChar settings d).crashed = some .alreadyOpen := by
        rw [onRetry_open signedChar settings h.isOpen]
      exact hharmless.neverReopened hopen

end

def exampleSettings : Settings := ⟨9600, 2⟩

/-- The defaults are asked for again while the first answer is awaited. -/
def patient : List Label :=
  [.command .configDefault, .txTask, .ackAck ⟨MsgId.cfgPrt⟩ ⟨MsgId.cfgPrt⟩, .readDone,
    .command .configDefault, .ackAck ⟨MsgId.cfgRate⟩ ⟨MsgId.cfgRate⟩, .command .configDefault,
    .command (.reset {})]

theorem commands_harmless_patient :
    ∃ d, run (step true exampleSettings) (start true exampleSettings) patient = some d ∧
      Harmless d := by
  have hsome : (run (step true exampleSettings) (start true exampleSettings) patient).isSome := by
    decide +kernel
  obtain ⟨d, hd⟩ := Option.isSome_iff_exists.mp hsome
  have hleft : LeavesTimer true exampleSettings patient := by
    rw [LeavesTimer]
    decide +kernel
  exact ⟨d, hd, (commands_harmless true exampleSettings hd).1 hleft⟩

/-- A reset is asked for before the receiver has answered, and the timer completes. -/
def earlyReset : List Label := [.command (.reset {}), .retry]

/-- The same, and the receiver answers before the timer completes. -/
def earlyResetAnswered : List Label :=
  [.command (.reset {}), .ackAck ⟨MsgId.cfgPrt⟩ ⟨MsgId.cfgPrt⟩, .command .configDefault,
    .ackAck ⟨MsgId.cfgRate⟩ ⟨MsgId.cfgRate⟩, .command .configDefault]

theorem commands_harmful_earlyReset :
    (∃ d, run (step true exampleSettings) (start true exampleSettings) earlyReset = some d ∧
      d.crashed = some .alreadyOpen ∧ ¬Harmless d) ∧
    (∃ d, run (step true exampleSettings) (start true exampleSettings) earlyResetAnswered =
      some d ∧ d.crashed = none ∧ d.initState = .ready ∧ ¬Harmless d) := by
  have hcrash : (run (step true exampleSettings) (start true exampleSettings) earlyReset).map
      (·.crashed) = some (some .alreadyOpen) := by decide +kernel
  have hlost : (run (step true exampleSettings) (start true exampleSettings)
      earlyResetAnswered).map (fun d => (d.crashed, d.initState,
        d.refused.any fun msg => !d.sent.contains (.ready, msg))) =
      some (none, .ready, true) := by decide +kernel
  constructor
  · obtain ⟨d, hd, hcrashed⟩ := Option.map_eq_some_iff.mp hcrash
    exact ⟨d, hd, hcrashed, fun h => h.neverReopened hcrashed⟩
  · obtain ⟨d, hd, h⟩ := Option.map_eq_some_iff.mp hlost
    simp only [Prod.mk.injEq, List.any_eq_true] at h
    obtain ⟨halive, hready, msg, hmsg, hnot⟩ := h
    refine ⟨d, hd, halive, hready, fun hharmless => ?_⟩
    have hsent := hharmless.notLost hready msg hmsg
    simp [hsent] at hnot

end MuonDetector.Ublox.Retry
