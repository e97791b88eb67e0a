import MuonDetector.Capnp.StatusCodecs
import MuonDetector.Core.DataStore
import MuonDetector.Core.Handlers

/-!
# The pins of the hardware and their switches

`GpioDriver` maps the signals of the hardware to pins, requests them as lines and writes the
lines on commands. What it has written goes to the data store and from there to the sink,
and requests are answered from the data store. The handlers of all of them run on the workers
of the pool.
-/

namespace MuonDetector.Drivers.Gpio

open MuonDetector.Capnp.CommandCodecs (GpioSignal)
open MuonDetector.Capnp.StatusCodecs (BiasSwitchEvent GainSwitchEvent PolaritySwitchEvent)
open MuonDetector.Core.DataStore (setChannel firstEntry secondEntry)
open MuonDetector.Data.Events (PreampSwitchEvent)
open MuonDetector.Core.Handlers

/-! ## Signals and pins -/

def ubiasEn : GpioSignal := ⟨0⟩
def preamp1 : GpioSignal := ⟨1⟩
def preamp2 : GpioSignal := ⟨2⟩
def evtAnd : GpioSignal := ⟨3⟩
def evtXor : GpioSignal := ⟨4⟩
def gainHl : GpioSignal := ⟨5⟩
def adcReady : GpioSignal := ⟨6⟩
def timepulse : GpioSignal := ⟨7⟩
def timeMeasOut : GpioSignal := ⟨8⟩
def status1 : GpioSignal := ⟨9⟩
def status2 : GpioSignal := ⟨10⟩
def status3 : GpioSignal := ⟨11⟩
def preampFault : GpioSignal := ⟨12⟩
def extTrigger : GpioSignal := ⟨13⟩
def tdcIntb : GpioSignal := ⟨14⟩
def tdcStatus : GpioSignal := ⟨15⟩
def inPol1 : GpioSignal := ⟨16⟩
def inPol2 : GpioSignal := ⟨17⟩
def undefinedSignal : GpioSignal := ⟨255⟩

inductive SignalDirection where
  | undefined
  | input
  | output
  | inout
  deriving DecidableEq, Repr

/-- `GPIO_SIGNAL_MAP`, without the names. -/
def gpioSignalMap : List (GpioSignal × SignalDirection) :=
  [(ubiasEn, .output), (preamp1, .output), (preamp2, .output), (evtAnd, .input),
    (evtXor, .input), (gainHl, .output), (adcReady, .input), (timepulse, .input),
    (timeMeasOut, .input), (status1, .output), (status2, .output), (status3, .output),
    (preampFault, .input), (extTrigger, .input), (tdcIntb, .input), (tdcStatus, .output),
    (inPol1, .output), (inPol2, .output), (undefinedSignal, .undefined)]

abbrev Pinmap := List (GpioSignal × Nat)

/-- `GPIO_PINMAP_VERSIONS`. -/
def gpioPinmapVersions : List Pinmap :=
  [[],
    [(ubiasEn, 4), (preamp1, 20), (preamp2, 21), (evtAnd, 5), (evtXor, 6), (gainHl, 17),
      (adcReady, 23), (timepulse, 18), (status1, 13), (status2, 19), (status3, 26),
      (tdcIntb, 24), (tdcStatus, 25), (extTrigger, 16)],
    [(ubiasEn, 26), (preamp1, 4), (preamp2, 17), (evtAnd, 22), (evtXor, 27), (gainHl, 6),
      (adcReady, 12), (timepulse, 18), (timeMeasOut, 5), (status1, 13), (status2, 19),
      (preampFault, 23), (tdcIntb, 20), (tdcStatus, 21), (extTrigger, 16)],
    [(ubiasEn, 26), (preamp1, 4), (preamp2, 17), (evtAnd, 22), (evtXor, 27), (gainHl, 6),
      (adcReady, 12), (timepulse, 18), (timeMeasOut, 5), (status1, 13), (status2, 19),
      (preampFault, 23), (extTrigger, 16), (inPol1, 24), (inPol2, 25)]]

/-! ## The driver -/

/-- The maps of the driver after `init`. `gpioMap` has the pins that are requested, with the
direction of the request. -/
structure GpioDriver where
  pinmap : Pinmap
  biasInverted : Bool
  gpioMap : List (Nat × SignalDirection)

/-- The pins with signals of a direction. -/
def pinsOf (pinmap : Pinmap) (dir : SignalDirection) : List Nat :=
  gpioSignalMap.filterMap fun (sig, direction) =>
    if sig = undefinedSignal then none
    else if direction = dir then pinmap.lookup sig else none

/-- `configureLines`, which the kernel may refuse. -/
def configureLines (gpios : List Nat) (dir : SignalDirection) (granted : Bool) :
    List (Nat × SignalDirection) :=
  if granted then gpios.map fun gpio => (gpio, dir) else []

/-- `MuonPi::Version::hardware.major`. The variable is static in a header, so that this file
has a copy of its own, and what others assign to theirs is not seen here. -/
def hardwareMajor : Nat := 3

/-- `init` for a major version of the hardware. The polarity of the bias line is not that of
the version given. -/
def init (major : Nat) (inputsGranted outputsGranted : Bool) : GpioDriver :=
  let pinmap := gpioPinmapVersions.getD major []
  { pinmap := pinmap
    biasInverted := if hardwareMajor = 1 then false else true
    gpioMap := configureLines (pinsOf pinmap .input) .input inputsGranted ++
      configureLines (pinsOf pinmap .output) .output outputsGranted }

/-- `r_pinmap_`. -/
def rPinmap (d : GpioDriver) : List (Nat × GpioSignal) := d.pinmap.map fun p => (p.2, p.1)

/-- Where no key stands twice, a map has the pairs it is written with. -/
theorem lookup_iff_mem {α β : Type} [DecidableEq α] {xs : List (α × β)}
    (hkeys : (xs.map Prod.fst).Nodup) (k : α) (v : β) : xs.lookup k = some v ↔ (k, v) ∈ xs := by
  induction xs with
  | nil => simp
  | cons x xs ih =>
    obtain ⟨key, value⟩ := x
    rw [List.map_cons, List.nodup_cons] at hkeys
    rw [List.lookup_cons, List.mem_cons, Prod.mk.injEq]
    by_cases hk : k = key
    · subst hk
      have hnone : (k, v) ∉ xs := fun h => hkeys.1 (List.mem_map.mpr ⟨_, h, rfl⟩)
      simp [hnone, eq_comm]
    · have hne : (k == key) = false := beq_eq_false_iff_ne.mpr hk
      simp [hne, hk, ih hkeys.2]

/-- Signals and pins of a version belong together, one to one. -/
structure OneToOne (pinmap : Pinmap) : Prop where
  signals : (pinmap.map Prod.fst).Nodup
  pins : (pinmap.map Prod.snd).Nodup

theorem oneToOne_init (major : Nat) (inputs outputs : Bool) :
    OneToOne (init major inputs outputs).pinmap := by
  change OneToOne (gpioPinmapVersions.getD major [])
  have hall : ∀ pinmap ∈ gpioPinmapVersions,
      (pinmap.map Prod.fst).Nodup ∧ (pinmap.map Prod.snd).Nodup := by decide
  have hget : gpioPinmapVersions.getD major [] = [] ∨
      gpioPinmapVersions.getD major [] ∈ gpioPinmapVersions := by
    rw [List.getD_eq_getElem?_getD]
    cases h : gpioPinmapVersions[major]? with
    | none => exact .inl rfl
    | some pinmap => exact .inr (List.mem_of_getElem? h)
  rcases hget with hget | hget
  · rw [hget]
    exact ⟨List.nodup_nil, List.nodup_nil⟩
  · exact ⟨(hall _ hget).1, (hall _ hget).2⟩

/-- **The reverse map finds the signal of every pin.** -/
theorem lookup_rPinmap (d : GpioDriver) (h : OneToOne d.pinmap) (sig : GpioSignal) (pin : Nat) :
    (rPinmap d).lookup pin = some sig ↔ d.pinmap.lookup sig = some pin := by
  have hkeys : ((rPinmap d).map Prod.fst).Nodup := by
    rw [rPinmap, List.map_map]
    exact h.pins
  rw [lookup_iff_mem hkeys, lookup_iff_mem h.signals, rPinmap, List.mem_map]
  constructor
  · rintro ⟨⟨sig', pin'⟩, hmem, heq⟩
    obtain ⟨rfl, rfl⟩ := Prod.mk.inj heq
    exact hmem
  · intro hmem
    exact ⟨(sig, pin), hmem, rfl⟩

theorem OneToOne.injective {pinmap : Pinmap} (h : OneToOne pinmap) {sig sig' : GpioSignal}
    {pin : Nat} (hs : pinmap.lookup sig = some pin) (hs' : pinmap.lookup sig' = some pin) :
    sig = sig' := by
  have hrev := lookup_rPinmap ⟨pinmap, false, []⟩ h
  exact Option.some.inj (((hrev sig pin).mpr hs).symm.trans ((hrev sig' pin).mpr hs'))

/-! ## Tasks and operations -/

inductive SwitchEvent where
  | bias (event : BiasSwitchEvent)
  | gain (event : GainSwitchEvent)
  | polarity (event : PolaritySwitchEvent)
  | preamp (event : PreampSwitchEvent)
  deriving DecidableEq, Repr

/-- The types of the data store that switches have. -/
inductive Kind where
  | bias
  | gain
  | polarity
  | preamps
  deriving DecidableEq, Repr

abbrev Kind.Data : Kind → Type
  | .bias => BiasSwitchEvent
  | .gain => GainSwitchEvent
  | .polarity => PolaritySwitchEvent
  | .preamps => Vector PreampSwitchEvent 2

/-- What is published: the commands for the switches, the requests, events for the data store
and events as such. An edge tells if it rises. -/
inductive Task where
  | biasSwitchCmd (state : Bool)
  | gainSwitchCmd (state : Bool)
  | preampSwitchCmd (channel : UInt8) (state : Bool)
  | polaritySwitchCmd (pol1 pol2 : Bool)
  | gpioSignalSetCmd (sig : GpioSignal) (on : Bool)
  | request (k : Kind)
  | datastoreStoreEvent (event : SwitchEvent)
  | event (event : SwitchEvent)
  | gpioEvent (sig : GpioSignal) (rising : Bool)
  deriving DecidableEq, Repr

/-- What handlers do with what they share. A write is known by its signal beside its pin. -/
inductive Op where
  | writeGpio (sig : GpioSignal) (gpio : Nat) (value : Bool)
  | lastUpdate (k : Kind)
  | get (k : Kind)
  | store (k : Kind) (value : k.Data)
  | handle (event : SwitchEvent)

abbrev Op.Res : Op → Type
  | .writeGpio .. => Bool
  | .lastUpdate _ => Bool
  | .get k => Option k.Data
  | .store .. => Unit
  | .handle _ => Unit

/-- The output lines and the data store, with the writes that succeeded and what the sink was
called with so far. -/
structure Daemon where
  levels : Nat → Bool
  data : (k : Kind) → Option k.Data
  written : List (GpioSignal × Bool)
  sent : List SwitchEvent

namespace Daemon

variable (s : Daemon)

/-- A write to a line that succeeds. -/
def write (sig : GpioSignal) (gpio : Nat) (value : Bool) : Daemon :=
  { s with
    levels := Function.update s.levels gpio value
    written := s.written ++ [(sig, value)] }

def store (k : Kind) (value : k.Data) : Daemon :=
  { s with data := Function.update s.data k (some value) }

/-- `TcpSink::handle`. -/
def handle (event : SwitchEvent) : Daemon := { s with sent := s.sent ++ [event] }

variable {s} {k : Kind} {value : k.Data}

@[simp] theorem store_data_self : (s.store k value).data k = some value :=
  Function.update_self ..

theorem store_data_of_ne {k' : Kind} (h : k' ≠ k) : (s.store k value).data k' = s.data k' :=
  Function.update_of_ne h ..

end Daemon

abbrev Prog := Program Task Op Op.Res

/-! ## The handlers -/

variable (d : GpioDriver)

/-- `writeSignal`. A signal without a pin is an exception. -/
def writeSignal (sig : GpioSignal) (value : Bool) (next : Bool → Prog) : Prog :=
  match d.pinmap.lookup sig with
  | none => .throws
  | some gpio => .call (.writeGpio sig gpio value) fun ok =>
      if ok then .publish (.gpioEvent sig value) (next ok) else next ok

/-- The level of the bias line for a state of the bias, and the state for a level. -/
def biasLevel (on : Bool) : Bool := if d.biasInverted then !on else on

@[simp] theorem biasLevel_biasLevel (on : Bool) : biasLevel d (biasLevel d on) = on := by
  unfold biasLevel
  cases d.biasInverted <;> simp

/-- What `GpioSignalSetCmd` publishes after the write. Nobody is subscribed to the store
events of the status LEDs. -/
def announce (sig : GpioSignal) (on : Bool) : Prog :=
  if sig = ubiasEn then
    .publish (.datastoreStoreEvent (.bias ⟨biasLevel d on⟩)) .done
  else if sig = preamp1 then .publish (.datastoreStoreEvent (.preamp ⟨0, on⟩)) .done
  else if sig = preamp2 then .publish (.datastoreStoreEvent (.preamp ⟨1, on⟩)) .done
  else if sig = gainHl then .publish (.datastoreStoreEvent (.gain ⟨on⟩)) .done
  else .done

/-- The preamplifiers, each with its signal, its channel and its place in the data store. -/
inductive Preamp where
  | first
  | second
  deriving DecidableEq, Repr

def Preamp.signal : Preamp → GpioSignal
  | .first => preamp1
  | .second => preamp2

def Preamp.channel : Preamp → UInt8
  | .first => 0
  | .second => 1

def Preamp.slot (data : Vector PreampSwitchEvent 2) : Preamp → PreampSwitchEvent
  | .first => firstEntry data
  | .second => secondEntry data

theorem slot_setChannel (data : Vector PreampSwitchEvent 2) (event : PreampSwitchEvent)
    (p : Preamp) : p.slot (setChannel data event) =
      if event.channel = p.channel then event else p.slot data := by
  have hzero : event.channel.toNat = 0 ↔ event.channel = 0 := by
    rw [← UInt8.toNat_inj]
    rfl
  have hone : event.channel.toNat = 1 ↔ event.channel = 1 := by
    rw [← UInt8.toNat_inj]
    rfl
  cases p with
  | first =>
    simp only [Preamp.slot, firstEntry, Preamp.channel, setChannel, Vector.getElem_setIfInBounds,
      hzero]
    rfl
  | second =>
    simp only [Preamp.slot, secondEntry, Preamp.channel, setChannel, Vector.getElem_setIfInBounds,
      hone]
    rfl

/-- The events of what is stored. -/
def eventsOf : (k : Kind) → k.Data → List SwitchEvent
  | .bias, value => [.bias value]
  | .gain, value => [.gain value]
  | .polarity, value => [.polarity value]
  | .preamps, data => [.preamp (Preamp.first.slot data), .preamp (Preamp.second.slot data)]

/-- The handler of a request: it publishes what is stored. A null pointer is never behind
`lastUpdate`. -/
def answer (k : Kind) : Prog :=
  .call (.lastUpdate k) fun has =>
    if has then .call (.get k) fun value? =>
      match value? with
      | none => .throws
      | some value =>
        (eventsOf k value).foldr (fun event next => .publish (.event event) next) .done
    else .done

/-- The handler of `DatastoreStoreEvent<PreampSwitchEvent>`. -/
def storePreamp (event : PreampSwitchEvent) : Prog :=
  if event.channel > 1 then .done
  else .call (.lastUpdate .preamps) fun has =>
    if has then .call (.get .preamps) fun data? =>
      match data? with
      | none => .throws
      | some data => .call (.store .preamps (setChannel data event)) fun _ =>
          .publish (.request .preamps) .done
    else .call (.store .preamps (setChannel (.replicate 2 {}) event)) fun _ => .done

/-- `subscribe_one`. -/
def subscribeOne (k : Kind) (value : k.Data) (event : SwitchEvent) : Prog :=
  .call (.store k value) fun _ => .publish (.event event) .done

def handler : Task → Prog
  | .biasSwitchCmd state =>
    .publish (.gpioSignalSetCmd ubiasEn (biasLevel d state)) .done
  | .gainSwitchCmd state => .publish (.gpioSignalSetCmd gainHl state) .done
  | .preampSwitchCmd channel state =>
    if channel = 0 then .publish (.gpioSignalSetCmd preamp1 state) .done
    else if channel = 1 then .publish (.gpioSignalSetCmd preamp2 state) .done
    else .done
  | .polaritySwitchCmd pol1 pol2 =>
    writeSignal d inPol1 pol1 fun ok =>
      if !ok then .done
      else writeSignal d inPol2 pol2 fun ok =>
        if !ok then .done else .publish (.datastoreStoreEvent (.polarity ⟨pol1, pol2⟩)) .done
  | .gpioSignalSetCmd sig on =>
    writeSignal d sig on fun ok => if !ok then .done else announce d sig on
  | .request k => answer k
  | .datastoreStoreEvent (.bias value) => subscribeOne .bias value (.bias value)
  | .datastoreStoreEvent (.gain value) => subscribeOne .gain value (.gain value)
  | .datastoreStoreEvent (.polarity value) => subscribeOne .polarity value (.polarity value)
  | .datastoreStoreEvent (.preamp event) => storePreamp event
  | .event event => .call (.handle event) fun _ => .done
  | .gpioEvent _ _ => .done

/-- An operation, and the choice of the kernel whether a write to an output succeeds. It
refuses writes to inputs. -/
def exec (granted : Bool) (s : Daemon) : (op : Op) → Daemon × op.Res
  | .writeGpio sig gpio value =>
    if granted ∧ d.gpioMap.lookup gpio = some .output then (s.write sig gpio value, true)
    else (s, false)
  | .lastUpdate k => (s, (s.data k).isSome)
  | .get k => (s, s.data k)
  | .store k value => (s.store k value, ())
  | .handle event => (s.handle event, ())

def bindings : Bindings Daemon Task Op Bool Op.Res := ⟨handler d, exec d⟩

/-- After `init`: the outputs are low and nothing is stored. -/
def fresh : Daemon := ⟨fun _ => false, fun _ => none, [], []⟩

end MuonDetector.Drivers.Gpio
