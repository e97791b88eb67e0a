import MuonDetector.Library.Conversions
import MuonDetector.Library.Machine
import MuonDetector.Capnp.CommandCodecs

/-!
# The command line

The parser goes through the arguments from left to right. An argument that begins with a
minus is an option, which takes the next argument for its value unless that begins with a
minus too. Each option converts its value in its own way.
-/

namespace MuonDetector.App.CommandLine

open MuonDetector.Library MuonDetector.Library.Machine MuonDetector.Library.Conversions
open MuonDetector.Capnp.CommandCodecs (GpioSignal)

abbrev Text := List Char

variable {F : Type}

/-! ## The settings -/

/-- The settings that the command line changes. `F` is the type `float`. -/
structure SystemConfig (F : Type) where
  gpsdevname : Text := []
  logLevel : Text := "Warning".toList
  pcaPortMask : UInt8 := 0
  thresholdVoltage : Fin 2 → F
  biasVoltage : F
  biasOn : Bool := false
  eventTrigger : GpioSignal := .evtXor
  serverAddress : Text := "0.0.0.0".toList
  serverPort : UInt16 := 51508
  showout : Bool := false
  showin : Bool := false
  preampEnable : Fin 2 → Bool := fun _ => false
  hiGain : Bool := false
  stationID : Text := ['0']
  polarity : Fin 2 → Bool := fun _ => true
  gnssDumpRaw : Bool := false
  gnssBaudrate : Int := 9600
  sds011NSleep : UInt32 := 0

structure PresenceFlags where
  cliGpsDevice : Bool := false
  cliGnssBaud : Bool := false
  cliServerAddress : Bool := false
  cliServerPort : Bool := false
  cliTimingInput : Bool := false
  cliBias : Bool := false
  cliPreamp : Fin 2 → Bool := fun _ => false
  cliGain : Bool := false
  cliTrigger : Bool := false
  cliPolarity : Fin 2 → Bool := fun _ => false
  cliStationId : Bool := false
  cliSds011Sleep : Bool := false
  cfgServerPort : Bool := false
  cfgTimingInput : Bool := false

structure ConfigParser (F : Type) where
  config : SystemConfig F
  presence : PresenceFlags := {}

/-! ## The arguments -/

def isFlag (arg : Text) : Bool := ['-'].isPrefixOf arg

def stripPrefix (arg : Text) : Text :=
  if ['-', '-'].isPrefixOf arg then arg.drop 2
  else if ['-'].isPrefixOf arg then arg.drop 1
  else arg

inductive CliOption
  | logging
  | dumpRaw
  | showIncoming
  | showOutgoing
  | baudrate
  | server
  | daemonPort
  | threshold (channel : Fin 2)
  | bias
  | biasOn
  | preamp (channel : Fin 2)
  | gain
  | polarity (channel : Fin 2)
  | stationId
  | trigger
  | pca
  | sds011Sleep
  | help
  deriving DecidableEq, Repr

abbrev firstChannel : Fin 2 := ⟨0, Nat.zero_lt_two⟩

abbrev secondChannel : Fin 2 := ⟨1, Nat.one_lt_two⟩

def optionOf (key : Text) : Option CliOption :=
  match String.ofList key with
  | "l" | "logging" => some .logging
  | "d" => some .dumpRaw
  | "showin" | "showincoming" => some .showIncoming
  | "showout" | "showoutgoing" => some .showOutgoing
  | "b" => some .baudrate
  | "server" | "daemonAddress" => some .server
  | "dp" | "daemonPort" => some .daemonPort
  | "th1" | "discr1" => some (.threshold firstChannel)
  | "th2" | "discr2" => some (.threshold secondChannel)
  | "bias" => some .bias
  | "p" => some .biasOn
  | "pre1" => some (.preamp firstChannel)
  | "pre2" => some (.preamp secondChannel)
  | "g" | "gain" => some .gain
  | "pol1" => some (.polarity firstChannel)
  | "pol2" => some (.polarity secondChannel)
  | "id" => some .stationId
  | "t" | "trigger" => some .trigger
  | "pca" | "signal" => some .pca
  | "sds011_n_sleep" => some .sds011Sleep
  | "h" | "help" => some .help
  | _ => none

/-- The option asks for the next value. -/
def CliOption.takesValue : CliOption → Bool
  | .logging | .baudrate | .server | .daemonPort | .threshold _ | .bias | .polarity _ | .stationId
  | .trigger | .pca | .sds011Sleep => true
  | .dumpRaw | .showIncoming | .showOutgoing | .biasOn | .preamp _ | .gain | .help => false

/-- What one turn of the loop reads. -/
inductive Item
  | positional (arg : Text)
  | option (opt : CliOption) (value : Option Text)
  | unknown
  deriving DecidableEq, Repr

/-- `next_value`, with the arguments that are left. -/
def nextValue : List Text → Option Text × List Text
  | [] => (none, [])
  | arg :: args => if isFlag arg then (none, arg :: args) else (some arg, args)

def readItem (arg : Text) (args : List Text) : Item × List Text :=
  if isFlag arg then
    match optionOf (stripPrefix arg) with
    | none => (.unknown, args)
    | some opt =>
      if opt.takesValue then (.option opt (nextValue args).1, (nextValue args).2)
      else (.option opt none, args)
  else (.positional arg, args)

/-! ## One item -/

/-- Why the loop is left before its end. -/
inductive Stop
  | exit
  | thrown (failure : Failure)
  deriving DecidableEq, Repr

/-- A conversion and an assignment in a `try` block that catches everything. -/
def trySet {α : Type} (converted : Except Failure α) (set : α → ConfigParser F)
    (s : ConfigParser F) : ConfigParser F :=
  match converted with
  | .ok x => set x
  | .error _ => s

/-- `EVT_XOR`, `EVT_AND`, `TIME_MEAS_OUT` and `EXT_TRIGGER`. -/
def triggerOf : Int → Option GpioSignal
  | 0 => some ⟨4⟩
  | 1 => some ⟨3⟩
  | 2 => some ⟨8⟩
  | 3 => some ⟨13⟩
  | _ => none

def logLevels : List Text :=
  ["Warning".toList, "Error".toList, "Info".toList, "Debug".toList]

/-- What the platform decides of the conversions: the bits of `unsigned long`, and `std::stof`,
which gives what it has not read beside the number. It passes white space, reads at least one
character, finds no number without a digit and without an `n` (`inf`, `nan`), and reads whole
numbers in the range of a `float` as such. -/
structure Numbers (F : Type) where
  unsignedLong : Nat
  stof : Text → Except Failure (F × Text)
  isFinite : F → Bool
  long_enough : 32 ≤ unsignedLong
  stof_blanks : ∀ value, stof (value.dropWhile Texts.isBlank) = stof value
  stof_rest : ∀ value x rest, stof value = .ok (x, rest) → rest <:+ value ∧ rest ≠ value
  stof_no_number : ∀ value, (∀ c ∈ value, c.isDigit = false ∧ c ≠ 'n' ∧ c ≠ 'N') →
    stof value = .error .invalidArgument
  stof_number : ∀ value n, IsNumber value n → n.natAbs < 2 ^ 127 →
    ∃ x, stof value = .ok (x, []) ∧ isFinite x = true
  stof_not_finite : ∀ value ∈ ["nan".toList, "inf".toList, "-inf".toList],
    ∃ x, stof value = .ok (x, []) ∧ isFinite x = false

/-- An option with its value. -/
def applyValue (lib : Numbers F) (opt : CliOption) (value : Text) (s : ConfigParser F) :
    Except Stop (ConfigParser F) :=
  let ⟨config, presence⟩ := s
  match opt with
  | .logging => .ok
      (if logLevels.contains value then ⟨{ config with logLevel := value }, presence⟩ else s)
  | .baudrate => .ok (trySet (stoi value)
      (fun n => ⟨{ config with gnssBaudrate := n }, { presence with cliGnssBaud := true }⟩) s)
  | .server => .ok
      ⟨{ config with serverAddress := value }, { presence with cliServerAddress := true }⟩
  | .daemonPort => .ok (trySet (stoul lib.unsignedLong value)
      (fun n => ⟨{ config with serverPort := .ofBitVec (n.setWidth 16) },
        { presence with cliServerPort := true }⟩) s)
  | .threshold channel => .ok (trySet (lib.stof value)
      (fun x => ⟨{ config with
        thresholdVoltage := Function.update config.thresholdVoltage channel x.1 }, presence⟩) s)
  | .bias => .ok (trySet (lib.stof value)
      (fun x => ⟨{ config with biasVoltage := x.1 }, { presence with cliBias := true }⟩) s)
  | .polarity channel => .ok
      ⟨{ config with polarity := Function.update config.polarity channel (value = ['1']) },
        { presence with cliPolarity := Function.update presence.cliPolarity channel true }⟩
  | .stationId => .ok
      ⟨{ config with stationID := value }, { presence with cliStationId := true }⟩
  | .trigger =>
    match stoi value with
    | .error failure => .error (.thrown failure)
    | .ok n => .ok ⟨{ config with eventTrigger := (triggerOf n).getD config.eventTrigger },
        { presence with cliTrigger := true }⟩
  | .pca => .ok (trySet (stoi value)
      (fun n => ⟨{ config with pcaPortMask := UInt8.ofInt n },
        { presence with cliTimingInput := true }⟩) s)
  | .sds011Sleep => .ok (trySet (stoi value)
      (fun n => ⟨{ config with sds011NSleep := UInt32.ofInt n },
        { presence with cliSds011Sleep := true }⟩) s)
  | .dumpRaw | .showIncoming | .showOutgoing | .biasOn | .preamp _ | .gain | .help => .ok s

/-- An option without a value. -/
def applyFlag (opt : CliOption) (s : ConfigParser F) : Except Stop (ConfigParser F) :=
  let ⟨config, presence⟩ := s
  match opt with
  | .dumpRaw => .ok ⟨{ config with gnssDumpRaw := true }, presence⟩
  | .showIncoming => .ok ⟨{ config with showin := true }, presence⟩
  | .showOutgoing => .ok ⟨{ config with showout := true }, presence⟩
  | .biasOn => .ok ⟨{ config with biasOn := true }, { presence with cliBias := true }⟩
  | .preamp channel => .ok
      ⟨{ config with preampEnable := Function.update config.preampEnable channel true },
        { presence with cliPreamp := Function.update presence.cliPreamp channel true }⟩
  | .gain => .ok ⟨{ config with hiGain := true }, { presence with cliGain := true }⟩
  | .help => .error .exit
  | .logging | .baudrate | .server | .daemonPort | .threshold _ | .bias | .polarity _ | .stationId
  | .trigger | .pca | .sds011Sleep => .ok s

def applyItem (lib : Numbers F) (s : ConfigParser F) : Item → Except Stop (ConfigParser F)
  | .positional arg => .ok
      (if s.config.gpsdevname = [] then
        ⟨{ s.config with gpsdevname := arg }, { s.presence with cliGpsDevice := true }⟩
      else s)
  | .unknown => .ok s
  | .option opt (some value) => applyValue lib opt value s
  | .option opt none => applyFlag opt s

/-- At most `n` turns of the loop. -/
def parseLoop (lib : Numbers F) : Nat → List Text → ConfigParser F → Except Stop (ConfigParser F)
  | 0, _, s => .ok s
  | _ + 1, [], s => .ok s
  | n + 1, arg :: args, s =>
    match applyItem lib s (readItem arg args).1 with
    | .error stop => .error stop
    | .ok s => parseLoop lib n (readItem arg args).2 s

/-- `parse`, for the arguments behind the name of the program. -/
def parse (lib : Numbers F) (args : List Text) (s : ConfigParser F) : Except Stop (ConfigParser F) :=
  parseLoop lib args.length args s

/-! ## The config file -/

/-- `tcp_port`, where it is set. -/
def loadTcpPort (port : Int) (s : ConfigParser F) : ConfigParser F :=
  ⟨{ s.config with serverPort := UInt16.ofInt port }, { s.presence with cfgServerPort := true }⟩

/-- `timing_input`, where it is set. -/
def loadTimingInput (mask : Int) (s : ConfigParser F) : ConfigParser F :=
  if mask < 0 ∨ mask > 255 then s
  else
    ⟨{ s.config with pcaPortMask := UInt8.ofInt mask }, { s.presence with cfgTimingInput := true }⟩

end MuonDetector.App.CommandLine
