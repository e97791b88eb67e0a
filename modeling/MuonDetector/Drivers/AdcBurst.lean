import MuonDetector.Library.Machine
import MuonDetector.Library.Timers
import MuonDetector.Drivers.Adc

/-!
# Bursts of samples

A timer that arms itself anew takes the samples of a burst. Stopping cancels the wait, but
the completion of a wait that had expired before still runs: it takes a sample, finds
nothing left to take and publishes what there is.
-/

namespace MuonDetector.Drivers.Adc

open MuonDetector.Library MuonDetector.Library.Machine MuonDetector.Library.Timers
open MuonDetector.Library.Messages (Binary32)
open MuonDetector.Capnp.CommandCodecs (StartBurstSampling)

/-- The part of the driver that takes bursts. The interval is in milliseconds. -/
structure Burst where
  interval : Nat := 0
  remaining : Int := 0
  burstSamples : List Binary32 := []
  timer : Timer := {}
  deriving DecidableEq, Repr

namespace Burst

def stopBurst (b : Burst) : Burst := { b with remaining := 0, timer := b.timer.cancel }

def scheduleBurst (b : Burst) : Burst :=
  if b.remaining ≤ 0 then b else { b with timer := b.timer.arm }

/-- `static_cast<int>` -/
def castInt (samples : UInt64) : Int := samples.toUInt32.toInt32.toInt

def startBurst (b : Burst) (cmd : StartBurstSampling) : Burst :=
  if cmd.frequencyHz = 0 ∨ cmd.samples = 0 then b.stopBurst
  else scheduleBurst { b with
    interval := max 1 (1000 / cmd.frequencyHz.toNat)
    remaining := castInt cmd.samples
    burstSamples := [] }

/-- The handler of an expired wait, and the trace that it publishes. There is no device, or the
device gives a sample or none. -/
def onExpiry (b : Burst) (adc : Option (Option Binary32)) : Burst × List Binary32 :=
  match adc with
  | none => (b.stopBurst, [])
  | some sample =>
    let burstSamples := b.burstSamples ++ sample.toList
    let remaining := b.remaining - 1
    if remaining ≤ 0 then ({ b with remaining := remaining, burstSamples := [] }, burstSamples)
    else (scheduleBurst { b with remaining := remaining, burstSamples := burstSamples }, [])

end Burst

/-! ## Orders of commands and completions -/

inductive Happening where
  | start (cmd : StartBurstSampling)
  | stop
  | expire
  | complete (adc : Option (Option Binary32))
  | abort
  deriving DecidableEq, Repr

/-- A burst and what has happened: the samples taken since the most recent start, those of them
that no trace has carried, how many that start asked for, whether a stop came after it, and the
trace that the last step published. -/
structure Watched where
  burst : Burst := {}
  taken : List Binary32 := []
  untraced : List Binary32 := []
  requested : Nat := 0
  stopped : Bool := false
  trace : List Binary32 := []
  deriving DecidableEq, Repr

def Watched.step (w : Watched) : Happening → Option Watched
  | .start cmd =>
    if cmd.frequencyHz = 0 ∨ cmd.samples = 0 then
      some { w with burst := w.burst.startBurst cmd, stopped := true, trace := [] }
    else
      some {
        burst := w.burst.startBurst cmd
        taken := []
        untraced := []
        requested := cmd.samples.toNat
        stopped := false
        trace := [] }
  | .stop => some { w with burst := w.burst.stopBurst, stopped := true, trace := [] }
  | .expire => w.burst.timer.expire.map fun timer =>
      { w with burst := { w.burst with timer := timer }, trace := [] }
  | .complete adc => w.burst.timer.takeExpired.map fun timer =>
      let (burst, trace) := { w.burst with timer := timer }.onExpiry adc
      { w with
        burst := burst
        taken := w.taken ++ (adc.bind id).toList
        untraced := if trace = [] then w.untraced ++ (adc.bind id).toList else []
        trace := trace }
  | .abort => w.burst.timer.takeAborted.map fun timer =>
      { w with burst := { w.burst with timer := timer }, trace := [] }

/-- One wait at most is pending, and a trace holds samples taken since the most recent start,
no more than that asked for. -/
structure Orderly (w : Watched) : Prop where
  single : w.burst.timer.pending ≤ 1
  recent : w.trace <:+ w.taken
  bounded : w.trace.length ≤ w.requested

/-- Nothing is published between a stop and the next start. -/
def Silent (w w' : Watched) : Prop := w.stopped = true → w'.trace = []

/-- A completion that runs after a stop has nothing to publish: there is no device, or it gives
no sample and every sample since the most recent start has been in a trace. -/
def NothingLeft (w : Watched) : Happening → Prop
  | .complete (some sample) => w.stopped = true → sample = none ∧ w.untraced = []
  | _ => True

/-- What holds between the steps. -/
structure Sound (w : Watched) : Prop where
  orderly : Orderly w
  recent : w.burst.burstSamples <:+ w.taken
  untraced : w.untraced = w.burst.burstSamples
  none_yet : w.requested = 0 → w.burst.timer.pending = 0 ∧ w.burst.timer.expired = 0
  room : 0 < w.requested → w.burst.burstSamples.length + 1 ≤ w.requested
  remaining_le : 0 < w.requested →
    (w.burst.burstSamples.length : Int) + w.burst.remaining ≤ w.requested
  stopped_remaining : w.stopped = true → w.burst.remaining ≤ 0

theorem sound_start : Sound {} where
  orderly := ⟨Nat.zero_le 1, List.suffix_refl [], le_refl 0⟩
  recent := List.suffix_refl []
  untraced := rfl
  none_yet _ := ⟨rfl, rfl⟩
  room h := absurd h (lt_irrefl 0)
  remaining_le h := absurd h (lt_irrefl 0)
  stopped_remaining h := Bool.noConfusion h

/-! ## One step -/

theorem scheduleBurst_remaining (b : Burst) :
    b.scheduleBurst.remaining = b.remaining ∧ b.scheduleBurst.burstSamples = b.burstSamples ∧
      b.scheduleBurst.timer.expired = b.timer.expired := by
  rw [Burst.scheduleBurst]
  split <;> exact ⟨rfl, rfl, rfl⟩

theorem scheduleBurst_single {b : Burst} (h : b.timer.pending ≤ 1) :
    b.scheduleBurst.timer.pending ≤ 1 := by
  rw [Burst.scheduleBurst]
  split
  · exact h
  · exact Timer.single_arm b.timer

theorem castInt_le (samples : UInt64) : Burst.castInt samples ≤ samples.toNat := by
  have hlow : samples.toUInt32.toBitVec.toNat = samples.toNat % 2 ^ 32 :=
    UInt64.toNat_toUInt32 samples
  have hmod := Nat.mod_le samples.toNat (2 ^ 32)
  have hcast : Burst.castInt samples = samples.toUInt32.toBitVec.toInt := rfl
  rw [hcast, BitVec.toInt_eq_toNat_cond, hlow]
  split <;> omega

theorem sound_stop {w : Watched} (h : Sound w) :
    Sound { w with burst := w.burst.stopBurst, stopped := true, trace := [] } where
  orderly := ⟨Timer.single_cancel w.burst.timer, List.nil_suffix, Nat.zero_le _⟩
  recent := h.recent
  untraced := h.untraced
  none_yet hzero := ⟨rfl, (h.none_yet hzero).2⟩
  room := h.room
  remaining_le hpos := by
    have hroom := h.room hpos
    show (w.burst.burstSamples.length : Int) + 0 ≤ w.requested
    omega
  stopped_remaining _ := le_refl 0

/-- A start asks for at least one sample and schedules no more than it asks for. -/
theorem sound_start_burst {w : Watched} (h : Sound w) {cmd : StartBurstSampling}
    (hcmd : ¬(cmd.frequencyHz = 0 ∨ cmd.samples = 0)) :
    Sound {
      burst := w.burst.startBurst cmd
      taken := []
      untraced := []
      requested := cmd.samples.toNat
      stopped := false
      trace := [] } := by
  have hpos : 0 < cmd.samples.toNat := by
    refine Nat.pos_of_ne_zero ?_
    intro hzero
    exact hcmd (.inr (UInt64.toNat_inj.mp hzero))
  have hle := castInt_le cmd.samples
  obtain ⟨b, hstart, htimer, hbegin, hempty⟩ : ∃ b : Burst,
      w.burst.startBurst cmd = b.scheduleBurst ∧ b.timer = w.burst.timer ∧
        b.remaining = Burst.castInt cmd.samples ∧ b.burstSamples = [] :=
    ⟨_, if_neg hcmd, rfl, rfl, rfl⟩
  obtain ⟨hremaining, hsamples, -⟩ := scheduleBurst_remaining b
  have hsingle : b.timer.pending ≤ 1 := htimer ▸ h.orderly.single
  rw [hstart]
  constructor
  · exact ⟨scheduleBurst_single hsingle, List.suffix_refl [], Nat.zero_le _⟩
  · rw [hsamples, hempty]
  · exact hempty.symm.trans hsamples.symm
  · exact fun hzero => absurd hzero hpos.ne'
  · intro _
    rw [hsamples, hempty]
    exact hpos
  · intro _
    rw [hsamples, hremaining, hempty, hbegin]
    show (0 : Int) + _ ≤ (cmd.samples.toNat : Int)
    omega
  · exact fun hstopped => Bool.noConfusion hstopped

/-- The timer moves on, and nothing else. -/
theorem sound_timer {w : Watched} (h : Sound w) {timer : Timer} (hsingle : timer.pending ≤ 1)
    (hnone : w.requested = 0 → timer.pending = 0 ∧ timer.expired = 0) :
    Sound { w with burst := { w.burst with timer := timer }, trace := [] } where
  orderly := ⟨hsingle, List.nil_suffix, Nat.zero_le _⟩
  recent := h.recent
  untraced := h.untraced
  none_yet := hnone
  room := h.room
  remaining_le := h.remaining_le
  stopped_remaining := h.stopped_remaining

/-- The last sample, or one that comes after it. -/
theorem sound_lastExpiry {w : Watched} (h : Sound w) (hrequested : 0 < w.requested)
    (sample : Option Binary32) (hlast : w.burst.remaining - 1 ≤ 0) :
    Sound { w with
      burst := (w.burst.onExpiry (some sample)).1
      taken := w.taken ++ sample.toList
      untraced :=
        if (w.burst.onExpiry (some sample)).2 = [] then w.untraced ++ sample.toList else []
      trace := (w.burst.onExpiry (some sample)).2 } := by
  have hroom := h.room hrequested
  have hremaining := h.remaining_le hrequested
  have hone : sample.toList.length ≤ 1 := Option.length_toList_le
  have hexpiry : w.burst.onExpiry (some sample) =
      ({ w.burst with remaining := w.burst.remaining - 1, burstSamples := [] },
        w.burst.burstSamples ++ sample.toList) := if_pos hlast
  have hbound : (w.burst.burstSamples ++ sample.toList).length ≤ w.requested := by
    rw [List.length_append]
    omega
  have hrest : (0 : Int) + (w.burst.remaining - 1) ≤ w.requested := by
    omega
  have hnone : (if w.burst.burstSamples ++ sample.toList = [] then
      w.untraced ++ sample.toList else []) = [] := by
    rw [h.untraced]
    split <;> trivial
  rw [hexpiry]
  exact ⟨⟨h.orderly.single, List.suffix_append_self_iff.mpr h.recent, hbound⟩, List.nil_suffix,
    hnone, fun hzero => absurd hzero hrequested.ne', fun _ => hrequested, fun _ => hrest,
    fun _ => hlast⟩

/-- A sample with more to come, and the next wait. -/
theorem sound_nextExpiry {w : Watched} (h : Sound w) (hrequested : 0 < w.requested)
    (sample : Option Binary32) (hmore : ¬ w.burst.remaining - 1 ≤ 0) :
    Sound { w with
      burst := (w.burst.onExpiry (some sample)).1
      taken := w.taken ++ sample.toList
      untraced :=
        if (w.burst.onExpiry (some sample)).2 = [] then w.untraced ++ sample.toList else []
      trace := (w.burst.onExpiry (some sample)).2 } := by
  have hroom := h.room hrequested
  have hremaining := h.remaining_le hrequested
  have hone : sample.toList.length ≤ 1 := Option.length_toList_le
  obtain ⟨b, hexpiry, htimer, hbegin, hkept⟩ : ∃ b : Burst,
      w.burst.onExpiry (some sample) = (b.scheduleBurst, []) ∧ b.timer = w.burst.timer ∧
        b.remaining = w.burst.remaining - 1 ∧
        b.burstSamples = w.burst.burstSamples ++ sample.toList :=
    ⟨_, if_neg hmore, rfl, rfl, rfl⟩
  obtain ⟨hnext, hsamples, -⟩ := scheduleBurst_remaining b
  have hsingle : b.timer.pending ≤ 1 := htimer ▸ h.orderly.single
  rw [hexpiry]
  constructor
  · exact ⟨scheduleBurst_single hsingle, List.nil_suffix, Nat.zero_le _⟩
  · rw [hsamples, hkept]
    exact List.suffix_append_self_iff.mpr h.recent
  · rw [if_pos rfl, h.untraced, hsamples, hkept]
  · exact fun hzero => absurd hzero hrequested.ne'
  · intro _
    rw [hsamples, hkept, List.length_append]
    show _ < w.requested
    omega
  · intro _
    rw [hsamples, hnext, hkept, hbegin, List.length_append]
    show _ ≤ (w.requested : Int)
    omega
  · intro hstopped
    have hle := h.stopped_remaining hstopped
    omega

/-- The handler of an expired wait, where there is a device. -/
theorem sound_onExpiry {w : Watched} (h : Sound w) (hrequested : 0 < w.requested)
    (sample : Option Binary32) :
    Sound { w with
      burst := (w.burst.onExpiry (some sample)).1
      taken := w.taken ++ sample.toList
      untraced :=
        if (w.burst.onExpiry (some sample)).2 = [] then w.untraced ++ sample.toList else []
      trace := (w.burst.onExpiry (some sample)).2 } := by
  by_cases hlast : w.burst.remaining - 1 ≤ 0
  · exact sound_lastExpiry h hrequested sample hlast
  · exact sound_nextExpiry h hrequested sample hlast

/-- A completion runs only for a wait that had expired, and so after a start. -/
theorem Sound.requested_pos {w : Watched} (h : Sound w) (hexpired : 0 < w.burst.timer.expired) :
    0 < w.requested := by
  refine Nat.pos_of_ne_zero ?_
  intro hzero
  have hnone := (h.none_yet hzero).2
  omega

theorem sound_complete {w w' : Watched} (h : Sound w) {adc : Option (Option Binary32)}
    (hstep : w.step (.complete adc) = some w') : Sound w' := by
  obtain ⟨timer, htaken, rfl⟩ := Option.map_eq_some_iff.mp hstep
  have hsingle : w.burst.timer.Single := h.orderly.single
  have hrequested := h.requested_pos (Timer.takeExpired_spec htaken).1
  have htimer := sound_timer h (hsingle.takeExpired htaken)
    fun hzero => absurd hzero hrequested.ne'
  cases adc with
  | none =>
    have hstop := sound_stop htimer
    have hempty : w.taken ++ [] = w.taken := List.append_nil w.taken
    refine ⟨⟨Nat.zero_le 1, List.nil_suffix, Nat.zero_le _⟩, ?_, ?_, ?_, hstop.room,
      hstop.remaining_le, fun _ => le_refl 0⟩
    · exact hempty.symm ▸ h.recent
    · exact (List.append_nil w.untraced).trans h.untraced
    · exact fun hzero => absurd hzero hrequested.ne'
  | some sample => exact sound_onExpiry htimer hrequested sample

theorem sound_step {w w' : Watched} (h : Sound w) {a : Happening} (hstep : w.step a = some w') :
    Sound w' := by
  cases a with
  | start cmd =>
    rw [Watched.step] at hstep
    by_cases hcmd : cmd.frequencyHz = 0 ∨ cmd.samples = 0
    · rw [if_pos hcmd] at hstep
      obtain rfl := Option.some.inj hstep
      have hstop : w.burst.startBurst cmd = w.burst.stopBurst := if_pos hcmd
      rw [hstop]
      exact sound_stop h
    · rw [if_neg hcmd] at hstep
      obtain rfl := Option.some.inj hstep
      exact sound_start_burst h hcmd
  | stop =>
    obtain rfl := Option.some.inj hstep
    exact sound_stop h
  | expire =>
    obtain ⟨timer, hexpire, rfl⟩ := Option.map_eq_some_iff.mp hstep
    obtain ⟨hpending, hless, -⟩ := Timer.expire_spec hexpire
    have hsingle : w.burst.timer.Single := h.orderly.single
    refine sound_timer h (hsingle.expire hexpire) ?_
    intro hzero
    have hnone := (h.none_yet hzero).1
    omega
  | complete adc => exact sound_complete h hstep
  | abort =>
    obtain ⟨timer, haborted, rfl⟩ := Option.map_eq_some_iff.mp hstep
    obtain ⟨hpending, hexpired⟩ := Timer.takeAborted_spec haborted
    have hsingle : w.burst.timer.Single := h.orderly.single
    refine sound_timer h (hsingle.takeAborted haborted) ?_
    intro hzero
    rw [hpending, hexpired]
    exact h.none_yet hzero

/-- After a stop a step publishes nothing exactly when a completion that runs has nothing left
to publish. -/
theorem silent_iff {w w' : Watched} (h : Sound w) {a : Happening} (hstep : w.step a = some w') :
    Silent w w' ↔ NothingLeft w a := by
  cases a with
  | start cmd =>
    refine iff_of_true ?_ trivial
    intro _
    rw [Watched.step] at hstep
    split at hstep <;> cases hstep <;> rfl
  | stop =>
    cases hstep
    exact iff_of_true (fun _ => rfl) trivial
  | expire =>
    obtain ⟨timer, -, rfl⟩ := Option.map_eq_some_iff.mp hstep
    exact iff_of_true (fun _ => rfl) trivial
  | abort =>
    obtain ⟨timer, -, rfl⟩ := Option.map_eq_some_iff.mp hstep
    exact iff_of_true (fun _ => rfl) trivial
  | complete adc =>
    obtain ⟨timer, -, rfl⟩ := Option.map_eq_some_iff.mp hstep
    cases adc with
    | none => exact iff_of_true (fun _ => rfl) trivial
    | some sample =>
      refine forall_congr' fun hstopped => ?_
      have hlast : w.burst.remaining - 1 ≤ 0 := by
        have hle := h.stopped_remaining hstopped
        omega
      have htrace : ({ w.burst with timer := timer } : Burst).onExpiry (some sample) =
          ({ w.burst with timer := timer, remaining := w.burst.remaining - 1, burstSamples := [] },
            w.burst.burstSamples ++ sample.toList) := if_pos hlast
      rw [htrace, List.append_eq_nil_iff, Option.toList_eq_nil_iff, h.untraced]
      exact and_comm

/-! ## The run -/

/-- In every order of commands and completions one wait at most is pending, and a trace holds
no more samples than the most recent start asked for, all taken since. Nothing is published
between a stop and the next start exactly when no completion that runs there has anything left
to publish. -/
theorem silent_iff_nothing_left {happenings : List Happening} {w : Watched}
    (hrun : run Watched.step {} happenings = some w) :
    Orderly w ∧
      ((∀ before a after u u', happenings = before ++ a :: after →
          run Watched.step {} before = some u → u.step a = some u' → Silent u u') ↔
        Meets Watched.step NothingLeft {} happenings) := by
  have hsound : ∀ (w : Watched) (a : Happening) (w' : Watched), Sound w →
      w.step a = some w' → Sound w' := fun w a w' h hstep => sound_step h hstep
  constructor
  · have hend := run_history (fun _ w a w' h hstep => hsound w a w' h hstep) sound_start hrun
    exact hend.orderly
  · exact steps_iff_meets hsound (fun w a w' h hstep => silent_iff h hstep) sound_start hrun

/-! ## A stop between expiry and completion -/

def burstCmd : StartBurstSampling := ⟨100, 5⟩

/-- The wait expires before the stop, and its completion runs after it. -/
def lateStop : List Happening := [.start burstCmd, .expire, .stop, .complete (some (some ⟨0⟩))]

/-- The sample of the late completion is published as a trace. -/
theorem trace_after_stop :
    (run Watched.step {} (lateStop.take 3)).map (fun u => u.stopped) = some true ∧
      (run Watched.step {} lateStop).map (fun u => u.trace) = some [⟨0⟩] := by
  decide

/-- A burst of one sample is published, and the completion that runs after the stop of the next
burst gets no sample. -/
def tracedStop : List Happening :=
  [.start ⟨100, 1⟩, .expire, .complete (some (some ⟨7⟩)), .start burstCmd, .expire, .stop,
    .complete (some none)]

theorem silent_iff_nothing_left_three :
    ∃ w, run Watched.step {} tracedStop = some w ∧ Orderly w ∧
      ∀ before a after u u', tracedStop = before ++ a :: after →
        run Watched.step {} before = some u → u.step a = some u' → Silent u u' := by
  have hsome : (run Watched.step {} tracedStop).isSome = true := by decide
  obtain ⟨w, hrun⟩ := Option.isSome_iff_exists.mp hsome
  obtain ⟨horderly, hsilent⟩ := silent_iff_nothing_left hrun
  refine ⟨w, hrun, horderly, hsilent.mpr ?_⟩
  refine ⟨trivial, fun u₁ h₁ => ⟨trivial, fun u₂ h₂ => ⟨?_, fun u₃ h₃ => ⟨trivial, fun u₄ h₄ =>
    ⟨trivial, fun u₅ h₅ => ⟨trivial, fun u₆ h₆ => ⟨?_, fun _ _ => trivial⟩⟩⟩⟩⟩⟩⟩
  all_goals cases h₁; cases h₂
  · exact fun hstopped => Bool.noConfusion hstopped
  · cases h₃
    cases h₄
    cases h₅
    cases h₆
    exact fun _ => ⟨rfl, rfl⟩

end MuonDetector.Drivers.Adc
