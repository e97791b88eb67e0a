import MuonDetector.App.CommandLine

/-!
# Values and their ranges

What an item of the command line may change, and what has to become of a value that is no
number in the range of its setting. The conversions stop at the first character that is
no digit, and the casts behind them take a number of any size, so that this is a matter
of the value.
-/

namespace MuonDetector.App.ValueRanges

open MuonDetector.Library MuonDetector.Library.Machine MuonDetector.Library.Conversions
open MuonDetector.App.CommandLine
open MuonDetector.Capnp.CommandCodecs (GpioSignal)

variable {F : Type}

/-! ## The settings -/

inductive Setting
  | gpsdevname
  | logLevel
  | pcaPortMask
  | thresholdVoltage (channel : Fin 2)
  | biasVoltage
  | biasOn
  | eventTrigger
  | serverAddress
  | serverPort
  | showout
  | showin
  | preampEnable (channel : Fin 2)
  | hiGain
  | stationID
  | polarity (channel : Fin 2)
  | gnssDumpRaw
  | gnssBaudrate
  | sds011NSleep
  deriving DecidableEq, Repr

inductive Value (F : Type)
  | text (t : Text)
  | flag (b : Bool)
  | int (n : Int)
  | real (x : F)
  | signal (s : GpioSignal)

def Setting.get (config : SystemConfig F) : Setting → Value F
  | .gpsdevname => .text config.gpsdevname
  | .logLevel => .text config.logLevel
  | .pcaPortMask => .int config.pcaPortMask.toNat
  | .thresholdVoltage channel => .real (config.thresholdVoltage channel)
  | .biasVoltage => .real config.biasVoltage
  | .biasOn => .flag config.biasOn
  | .eventTrigger => .signal config.eventTrigger
  | .serverAddress => .text config.serverAddress
  | .serverPort => .int config.serverPort.toNat
  | .showout => .flag config.showout
  | .showin => .flag config.showin
  | .preampEnable channel => .flag (config.preampEnable channel)
  | .hiGain => .flag config.hiGain
  | .stationID => .text config.stationID
  | .polarity channel => .flag (config.polarity channel)
  | .gnssDumpRaw => .flag config.gnssDumpRaw
  | .gnssBaudrate => .int config.gnssBaudrate
  | .sds011NSleep => .int config.sds011NSleep.toNat

/-- The own setting of an option. -/
def settingOf : CliOption → Option Setting
  | .logging => some .logLevel
  | .dumpRaw => some .gnssDumpRaw
  | .showIncoming => some .showin
  | .showOutgoing => some .showout
  | .baudrate => some .gnssBaudrate
  | .server => some .serverAddress
  | .daemonPort => some .serverPort
  | .threshold channel => some (.thresholdVoltage channel)
  | .bias => some .biasVoltage
  | .biasOn => some .biasOn
  | .preamp channel => some (.preampEnable channel)
  | .gain => some .hiGain
  | .polarity channel => some (.polarity channel)
  | .stationId => some .stationID
  | .trigger => some .eventTrigger
  | .pca => some .pcaPortMask
  | .sds011Sleep => some .sds011NSleep
  | .help => none

def Item.setting : Item → Option Setting
  | .positional _ => some .gpsdevname
  | .option opt _ => settingOf opt
  | .unknown => none

/-! ## The property -/

/-- The whole value is a number in the range of the setting of the option. Options whose
values are no numbers take any. -/
def InRange (lib : Numbers F) (opt : CliOption) (value : Text) : Prop :=
  match opt with
  | .baudrate => ∃ n, IsNumber value n ∧ -2147483648 ≤ n ∧ n ≤ 2147483647
  | .daemonPort => ∃ n, IsNumber value n ∧ 0 ≤ n ∧ n ≤ 65535
  | .pca => ∃ n, IsNumber value n ∧ 0 ≤ n ∧ n ≤ 255
  | .trigger => ∃ n, IsNumber value n ∧ 0 ≤ n ∧ n ≤ 3
  | .sds011Sleep => ∃ n, IsNumber value n ∧ 0 ≤ n
  | .threshold _ | .bias => ∃ x, lib.stof value = .ok (x, []) ∧ lib.isFinite x = true
  | .logging | .dumpRaw | .showIncoming | .showOutgoing | .server | .biasOn | .preamp _ | .gain
  | .polarity _ | .stationId | .help => True

/-- What an item has to do. -/
structure Law (lib : Numbers F) (s : ConfigParser F) (item : Item) (s' : ConfigParser F) : Prop where
  own : ∀ setting, Item.setting item ≠ some setting →
    setting.get s'.config = setting.get s.config
  rejected : ∀ opt value setting, item = .option opt (some value) → settingOf opt = some setting →
    ¬ InRange lib opt value → setting.get s'.config = setting.get s.config

/-- The items of the arguments, in at most `n` turns. -/
def itemsLoop : Nat → List Text → List Item
  | 0, _ => []
  | _ + 1, [] => []
  | n + 1, arg :: args => (readItem arg args).1 :: itemsLoop n (readItem arg args).2

def items (args : List Text) : List Item := itemsLoop args.length args

def itemStep (lib : Numbers F) (s : ConfigParser F) (item : Item) : Option (ConfigParser F) :=
  (applyItem lib s item).toOption

/-- What is claimed of the parser. -/
structure Lawful (lib : Numbers F) (args : List Text) (s : ConfigParser F) : Prop where
  returns : ∃ s', parse lib args s = .ok s'
  items : ∀ pre item post u u', items args = pre ++ item :: post →
    run (itemStep lib) s pre = some u → itemStep lib u item = some u' → Law lib u item u'
  /-- The config file has its range for `timing_input`. -/
  timingInput : ∀ (t : ConfigParser F) mask, ¬ (0 ≤ mask ∧ mask ≤ 255) → loadTimingInput mask t = t

/-- No argument is the option for the help. -/
def NoHelp (args : List Text) : Prop :=
  ∀ arg ∈ args, isFlag arg = true → optionOf (stripPrefix arg) ≠ some .help

instance (args : List Text) : Decidable (NoHelp args) :=
  inferInstanceAs (Decidable (∀ arg ∈ args, isFlag arg = true → _ ≠ _))

/-! ## The condition -/

/-- What the conversion of the option, with its cast, makes of the value. -/
def converted (lib : Numbers F) (opt : CliOption) (value : Text) : Option (Value F) :=
  match opt with
  | .baudrate => (stoi value).toOption.map .int
  | .daemonPort => (stoul lib.unsignedLong value).toOption.map fun n =>
    .int (UInt16.ofBitVec (n.setWidth 16)).toNat
  | .pca => (stoi value).toOption.map fun n => .int (UInt8.ofInt n).toNat
  | .trigger => ((stoi value).toOption.bind triggerOf).map .signal
  | .sds011Sleep => (stoi value).toOption.map fun n => .int (UInt32.ofInt n).toNat
  | .threshold _ | .bias => (lib.stof value).toOption.map fun x => .real x.1
  | .logging | .dumpRaw | .showIncoming | .showOutgoing | .server | .biasOn | .preamp _ | .gain
  | .polarity _ | .stationId | .help => none

/-- The number at the front of the value, if there is one, is too large for its conversion, or
is the number in the setting as far as its bits go; for the trigger, it is no mode or the mode
that is set. -/
def Spares (lib : Numbers F) (config : SystemConfig F) (opt : CliOption) (value : Text) : Prop :=
  match opt with
  | .baudrate => ∀ n rest, readInteger value = some (n, rest) →
      n < -2147483648 ∨ 2147483647 < n ∨ n = config.gnssBaudrate
  | .daemonPort => ∀ n rest, readInteger value = some (n, rest) →
      2 ^ lib.unsignedLong ≤ n.natAbs ∨ n % 65536 = config.serverPort.toNat
  | .pca => ∀ n rest, readInteger value = some (n, rest) →
      n < -2147483648 ∨ 2147483647 < n ∨ n % 256 = config.pcaPortMask.toNat
  | .trigger => ∀ n rest, readInteger value = some (n, rest) →
      n < 0 ∨ 3 < n ∨ triggerOf n = some config.eventTrigger
  | .sds011Sleep => ∀ n rest, readInteger value = some (n, rest) →
      n < -2147483648 ∨ 2147483647 < n ∨ n % 4294967296 = config.sds011NSleep.toNat
  | .threshold channel => ∀ x rest, lib.stof value = .ok (x, rest) →
      x = config.thresholdVoltage channel
  | .bias => ∀ x rest, lib.stof value = .ok (x, rest) → x = config.biasVoltage
  | .logging | .dumpRaw | .showIncoming | .showOutgoing | .server | .biasOn | .preamp _ | .gain
  | .polarity _ | .stationId | .help => True

/-- The value is a number in its range, or one that the cast makes nothing new of; for the
trigger, it begins with a number that fits into an `int`. -/
def Converts (lib : Numbers F) (s : ConfigParser F) : Item → Prop
  | .option opt (some value) =>
    (InRange lib opt value ∨ Spares lib s.config opt value) ∧
    (opt = .trigger → ∃ n rest, readInteger value = some (n, rest) ∧
      -2147483648 ≤ n ∧ n ≤ 2147483647)
  | .option _ none | .positional _ | .unknown => True

/-! ## Own settings -/

theorem get_trySet {α : Type} {converted : Except Failure α} {set : α → ConfigParser F}
    {s : ConfigParser F} {setting : Setting}
    (h : ∀ x, setting.get (set x).config = setting.get s.config) :
    setting.get (trySet converted set s).config = setting.get s.config := by
  cases converted with
  | ok x => exact h x
  | error failure => rfl

theorem own_of_applyValue {lib : Numbers F} {opt : CliOption} {value : Text} {s s' : ConfigParser F}
    (h : applyValue lib opt value s = .ok s') {setting : Setting}
    (hne : settingOf opt ≠ some setting) : setting.get s'.config = setting.get s.config := by
  obtain ⟨config, presence⟩ := s
  cases opt with
  | logging =>
    obtain rfl := Except.ok.inj h
    split
    · cases setting <;> first | rfl | exact absurd rfl hne
    · rfl
  | baudrate | daemonPort | bias | pca | sds011Sleep =>
    obtain rfl := Except.ok.inj h
    refine get_trySet fun x => ?_
    cases setting <;> first | rfl | exact absurd rfl hne
  | server | stationId =>
    obtain rfl := Except.ok.inj h
    cases setting <;> first | rfl | exact absurd rfl hne
  | threshold channel =>
    obtain rfl := Except.ok.inj h
    refine get_trySet fun x => ?_
    cases setting with
    | thresholdVoltage c =>
      have hc : c ≠ channel := fun heq => hne (heq ▸ rfl)
      exact congrArg Value.real (Function.update_of_ne hc x.1 config.thresholdVoltage)
    | _ => rfl
  | polarity channel =>
    obtain rfl := Except.ok.inj h
    cases setting with
    | polarity c =>
      have hc : c ≠ channel := fun heq => hne (heq ▸ rfl)
      exact congrArg Value.flag (Function.update_of_ne hc _ config.polarity)
    | _ => rfl
  | trigger =>
    simp only [applyValue] at h
    split at h
    · cases h
    · obtain rfl := Except.ok.inj h
      cases setting <;> first | rfl | exact absurd rfl hne
  | dumpRaw | showIncoming | showOutgoing | biasOn | preamp | gain | help =>
    obtain rfl := Except.ok.inj h
    rfl

theorem own_of_applyFlag {opt : CliOption} {s s' : ConfigParser F}
    (h : applyFlag opt s = .ok s') {setting : Setting} (hne : settingOf opt ≠ some setting) :
    setting.get s'.config = setting.get s.config := by
  obtain ⟨config, presence⟩ := s
  cases opt with
  | dumpRaw | showIncoming | showOutgoing | biasOn | gain =>
    obtain rfl := Except.ok.inj h
    cases setting <;> first | rfl | exact absurd rfl hne
  | preamp channel =>
    obtain rfl := Except.ok.inj h
    cases setting with
    | preampEnable c =>
      have hc : c ≠ channel := fun heq => hne (heq ▸ rfl)
      exact congrArg Value.flag (Function.update_of_ne hc _ config.preampEnable)
    | _ => rfl
  | help => cases h
  | logging | baudrate | server | daemonPort | threshold | bias | polarity | stationId | trigger
  | pca | sds011Sleep =>
    obtain rfl := Except.ok.inj h
    rfl

theorem own_of_applyItem {lib : Numbers F} {s s' : ConfigParser F} {item : Item}
    (h : applyItem lib s item = .ok s') {setting : Setting}
    (hne : Item.setting item ≠ some setting) : setting.get s'.config = setting.get s.config := by
  cases item with
  | positional arg =>
    obtain rfl := Except.ok.inj h
    split
    · cases setting <;> first | rfl | exact absurd rfl hne
    · rfl
  | unknown =>
    obtain rfl := Except.ok.inj h
    rfl
  | option opt value =>
    cases value with
    | none => exact own_of_applyFlag h hne
    | some value => exact own_of_applyValue h hne

/-! ## Values outside their ranges -/

/-- The options whose values are numbers. -/
def isNumeric : CliOption → Bool
  | .baudrate | .daemonPort | .pca | .trigger | .sds011Sleep | .threshold _ | .bias => true
  | .logging | .dumpRaw | .showIncoming | .showOutgoing | .server | .biasOn | .preamp _ | .gain
  | .polarity _ | .stationId | .help => false

theorem inRange_of_not_numeric (lib : Numbers F) {opt : CliOption} (h : isNumeric opt = false)
    (value : Text) : InRange lib opt value := by
  cases opt with
  | baudrate | daemonPort | pca | trigger | sds011Sleep | threshold | bias => cases h
  | logging | dumpRaw | showIncoming | showOutgoing | server | biasOn | preamp | gain | polarity
  | stationId | help => trivial

/-- The setting of a number is what the conversion makes of it, or is left as it is. -/
theorem get_of_applyValue {lib : Numbers F} {opt : CliOption} {value : Text}
    {s s' : ConfigParser F} (h : applyValue lib opt value s = .ok s') (hopt : isNumeric opt = true)
    {setting : Setting} (hsetting : settingOf opt = some setting) :
    setting.get s'.config = (converted lib opt value).getD (setting.get s.config) := by
  obtain ⟨config, presence⟩ := s
  cases opt with
  | baudrate | pca | sds011Sleep =>
    obtain rfl := Except.ok.inj h
    obtain rfl := Option.some.inj hsetting
    simp only [converted]
    cases stoi value <;> rfl
  | daemonPort =>
    obtain rfl := Except.ok.inj h
    obtain rfl := Option.some.inj hsetting
    simp only [converted]
    cases stoul lib.unsignedLong value <;> rfl
  | bias =>
    obtain rfl := Except.ok.inj h
    obtain rfl := Option.some.inj hsetting
    simp only [converted]
    cases lib.stof value <;> rfl
  | threshold channel =>
    obtain rfl := Except.ok.inj h
    obtain rfl := Option.some.inj hsetting
    simp only [converted]
    cases lib.stof value with
    | error failure => rfl
    | ok x =>
      show Value.real (Function.update config.thresholdVoltage channel x.1 channel) = .real x.1
      rw [Function.update_self]
  | trigger =>
    obtain rfl := Option.some.inj hsetting
    simp only [applyValue, converted] at h ⊢
    cases hvalue : stoi value with
    | error failure =>
      rw [hvalue] at h
      cases h
    | ok n =>
      rw [hvalue] at h
      obtain rfl := Except.ok.inj h
      cases htrigger : triggerOf n <;> simp [Setting.get, Except.toOption, htrigger]
  | logging | dumpRaw | showIncoming | showOutgoing | server | biasOn | preamp | gain | polarity
  | stationId | help => cases hopt

theorem forall_converted {lib : Numbers F} {config : SystemConfig F} {opt : CliOption}
    {value : Text} {setting : Setting} (hsetting : settingOf opt = some setting) {α : Type}
    {c : Option α} {f : α → Value F} (hc : converted lib opt value = c.map f) :
    (∀ x ∈ converted lib opt value, ∀ setting ∈ settingOf opt, setting.get config = x) ↔
      ∀ a, c = some a → setting.get config = f a := by
  rw [hsetting, hc]
  cases c <;> simp

theorem toOption_stoi {value : Text} {n : Int} : (stoi value).toOption = some n ↔
    ∃ rest, readInteger value = some (n, rest) ∧ -2147483648 ≤ n ∧ n ≤ 2147483647 := by
  rw [← stoi_eq_ok]
  cases stoi value <;> simp [Except.toOption]

/-- What is asked of the numbers that `stoi` gives. -/
theorem forall_toOption_stoi {value : Text} {holds : Int → Prop} :
    (∀ n rest, readInteger value = some (n, rest) →
      n < -2147483648 ∨ 2147483647 < n ∨ holds n) ↔
      ∀ n, (stoi value).toOption = some n → holds n := by
  simp only [toOption_stoi]
  constructor
  · rintro h n ⟨rest, hread, hn⟩
    rcases h n rest hread with h | h | h
    · omega
    · omega
    · exact h
  · intro h n rest hread
    by_cases hn : -2147483648 ≤ n ∧ n ≤ 2147483647
    · exact .inr (.inr (h n ⟨rest, hread, hn⟩))
    · omega

/-- What is asked of the numbers that `stoul` gives. -/
theorem forall_toOption_stoul {w : Nat} {value : Text} {holds : BitVec w → Prop} :
    (∀ n rest, readInteger value = some (n, rest) → 2 ^ w ≤ n.natAbs ∨ holds (.ofInt w n)) ↔
      ∀ x, (stoul w value).toOption = some x → holds x := by
  constructor
  · intro h x hx
    cases hvalue : stoul w value with
    | error failure =>
      rw [hvalue] at hx
      cases hx
    | ok y =>
      rw [hvalue] at hx
      obtain rfl := Option.some.inj hx
      obtain ⟨n, rest, hread, hn, rfl⟩ := stoul_eq_ok.mp hvalue
      rcases h n rest hread with h | h
      · omega
      · exact h
  · intro h n rest hread
    by_cases hn : n.natAbs < 2 ^ w
    · have hvalue := stoul_eq_ok.mpr ⟨n, rest, hread, hn, rfl⟩
      exact .inr (h _ (congrArg Except.toOption hvalue))
    · exact .inl (not_lt.mp hn)

theorem triggerOf_eq_none {n : Int} (h : n < 0 ∨ 3 < n) : triggerOf n = none := by
  unfold triggerOf
  split <;> first | omega | rfl

theorem triggerOf_isSome {n : Int} (hlow : 0 ≤ n) (hhigh : n ≤ 3) : (triggerOf n).isSome = true := by
  have hmodes : n = 0 ∨ n = 1 ∨ n = 2 ∨ n = 3 := by omega
  rcases hmodes with rfl | rfl | rfl | rfl <;> rfl

/-- What is asked of the modes that the numbers of `stoi` stand for. -/
theorem forall_trigger {value : Text} {current : GpioSignal} :
    (∀ n rest, readInteger value = some (n, rest) →
      n < 0 ∨ 3 < n ∨ triggerOf n = some current) ↔
      ∀ mode, (stoi value).toOption.bind triggerOf = some mode → current = mode := by
  constructor
  · intro h mode hmode
    obtain ⟨n, hn, hmode⟩ := Option.bind_eq_some_iff.mp hmode
    obtain ⟨rest, hread, -⟩ := toOption_stoi.mp hn
    rcases h n rest hread with hlow | hhigh | h
    · rw [triggerOf_eq_none (.inl hlow)] at hmode
      cases hmode
    · rw [triggerOf_eq_none (.inr hhigh)] at hmode
      cases hmode
    · exact Option.some.inj (h.symm.trans hmode)
  · intro h n rest hread
    by_cases hn : n < 0 ∨ 3 < n
    · omega
    · have hlow : 0 ≤ n := by omega
      have hhigh : n ≤ 3 := by omega
      obtain ⟨mode, hmode⟩ := Option.isSome_iff_exists.mp (triggerOf_isSome hlow hhigh)
      have hvalue := toOption_stoi.mpr ⟨rest, hread, by omega, by omega⟩
      obtain rfl := h mode (Option.bind_eq_some_iff.mpr ⟨n, hvalue, hmode⟩)
      exact .inr (.inr hmode)

/-- `Spares` says of the value what the conversion then makes of it. -/
theorem spares_iff {lib : Numbers F} {config : SystemConfig F} {opt : CliOption} {value : Text} :
    Spares lib config opt value ↔
      ∀ x ∈ converted lib opt value, ∀ setting ∈ settingOf opt, setting.get config = x := by
  cases opt with
  | baudrate =>
    rw [forall_converted rfl rfl, Spares, forall_toOption_stoi]
    simp [Setting.get, eq_comm]
  | pca =>
    have hcast : ∀ n, ((UInt8.ofInt n).toNat : Int) = n % 256 := fun n => by
      simp only [UInt8.ofInt, UInt8.toNat_ofNat']
      omega
    rw [forall_converted rfl rfl, Spares, forall_toOption_stoi]
    simp [Setting.get, hcast, eq_comm]
  | sds011Sleep =>
    have hcast : ∀ n, ((UInt32.ofInt n).toNat : Int) = n % 4294967296 := fun n => by
      simp only [UInt32.ofInt, UInt32.toNat_ofNat']
      omega
    rw [forall_converted rfl rfl, Spares, forall_toOption_stoi]
    simp [Setting.get, hcast, eq_comm]
  | daemonPort =>
    have hcast : ∀ n, (((BitVec.ofInt lib.unsignedLong n).setWidth 16).toNat : Int) = n % 65536 :=
      toNat_setWidth_ofInt (le_trans (by decide) lib.long_enough)
    rw [forall_converted rfl rfl, Spares, ← forall_toOption_stoul]
    refine forall₃_congr fun n rest _ => or_congr_right ?_
    rw [← hcast n, Setting.get, Value.int.injEq, eq_comm]
    rfl
  | trigger =>
    rw [forall_converted rfl rfl, Spares, forall_trigger]
    simp [Setting.get]
  | threshold channel =>
    rw [forall_converted rfl rfl, Spares]
    rcases lib.stof value with failure | ⟨x, rest⟩ <;>
      simp [Except.toOption, Setting.get, eq_comm]
  | bias =>
    rw [forall_converted rfl rfl, Spares]
    rcases lib.stof value with failure | ⟨x, rest⟩ <;>
      simp [Except.toOption, Setting.get, eq_comm]
  | logging | dumpRaw | showIncoming | showOutgoing | server | biasOn | preamp | gain | polarity
  | stationId | help =>
    refine iff_of_true trivial ?_
    intro x hx
    cases hx

theorem isNumeric_of_not_inRange {lib : Numbers F} {opt : CliOption} {value : Text}
    (h : ¬ InRange lib opt value) : isNumeric opt = true := by
  by_contra hnot
  exact h (inRange_of_not_numeric lib (by simpa using hnot) value)

theorem converts_of_rejected {lib : Numbers F} {opt : CliOption} {value : Text}
    {s s' : ConfigParser F} (h : applyValue lib opt value s = .ok s')
    (hrejected : ∀ setting, settingOf opt = some setting → ¬ InRange lib opt value →
      setting.get s'.config = setting.get s.config) :
    Converts lib s (.option opt (some value)) := by
  constructor
  · by_cases hrange : InRange lib opt value
    · exact .inl hrange
    · right
      rw [spares_iff]
      intro x hx setting hsetting
      have hkept := hrejected setting hsetting hrange
      rw [get_of_applyValue h (isNumeric_of_not_inRange hrange) hsetting, hx,
        Option.getD_some] at hkept
      exact hkept.symm
  · intro htrigger
    subst htrigger
    cases hvalue : stoi value with
    | ok n => exact ⟨n, stoi_eq_ok.mp hvalue⟩
    | error failure => simp [applyValue, hvalue] at h

theorem rejected_of_converts {lib : Numbers F} {opt : CliOption} {value : Text}
    {s s' : ConfigParser F} (h : applyValue lib opt value s = .ok s')
    (hconverts : Converts lib s (.option opt (some value))) {setting : Setting}
    (hsetting : settingOf opt = some setting) (hrange : ¬ InRange lib opt value) :
    setting.get s'.config = setting.get s.config := by
  rw [get_of_applyValue h (isNumeric_of_not_inRange hrange) hsetting]
  cases hconverted : converted lib opt value with
  | none => rfl
  | some x =>
    rcases hconverts.1 with hin | hspares
    · exact absurd hin hrange
    · exact (spares_iff.mp hspares x hconverted setting hsetting).symm

/-- An item that has been applied meets the law exactly when it meets the condition. -/
theorem law_iff_converts {lib : Numbers F} {s s' : ConfigParser F} {item : Item}
    (h : applyItem lib s item = .ok s') : Law lib s item s' ↔ Converts lib s item := by
  have hown : ∀ setting, Item.setting item ≠ some setting →
      setting.get s'.config = setting.get s.config := fun setting hne => own_of_applyItem h hne
  cases item with
  | positional arg =>
    refine iff_of_true ⟨hown, ?_⟩ trivial
    intro opt value setting heq
    cases heq
  | unknown =>
    refine iff_of_true ⟨hown, ?_⟩ trivial
    intro opt value setting heq
    cases heq
  | option opt value =>
    cases value with
    | none =>
      refine iff_of_true ⟨hown, ?_⟩ trivial
      intro opt value setting heq
      cases heq
    | some value =>
      constructor
      · intro hlaw
        exact converts_of_rejected h fun setting => hlaw.rejected opt value setting rfl
      · intro hconverts
        refine ⟨hown, ?_⟩
        intro opt' value' setting heq hsetting hrange
        cases heq
        exact rejected_of_converts h hconverts hsetting hrange

/-! ## The whole command line -/

/-- The loop applies the items one after the other. -/
theorem parseLoop_eq_ok {lib : Numbers F} {n : Nat} {args : List Text} {s s' : ConfigParser F} :
    parseLoop lib n args s = .ok s' ↔ run (itemStep lib) s (itemsLoop n args) = some s' := by
  induction n generalizing args s with
  | zero => simp [parseLoop, itemsLoop]
  | succ n ih =>
    cases args with
    | nil => simp [parseLoop, itemsLoop]
    | cons arg args =>
      rw [parseLoop, itemsLoop, run_cons_some, itemStep]
      cases happly : applyItem lib s (readItem arg args).1 with
      | error stop => simp [Except.toOption]
      | ok u => simp [Except.toOption, ih]

theorem parse_eq_ok {lib : Numbers F} {args : List Text} {s s' : ConfigParser F} :
    parse lib args s = .ok s' ↔ run (itemStep lib) s (items args) = some s' := parseLoop_eq_ok

theorem itemStep_eq_some {lib : Numbers F} {s s' : ConfigParser F} {item : Item} :
    itemStep lib s item = some s' ↔ applyItem lib s item = .ok s' := by
  rw [itemStep]
  cases applyItem lib s item <;> simp [Except.toOption]

theorem nextValue_suffix (args : List Text) : (nextValue args).2 <:+ args := by
  cases args with
  | nil => exact List.suffix_refl _
  | cons arg args =>
    rw [nextValue]
    split
    · exact List.suffix_refl _
    · exact List.suffix_cons arg args

theorem readItem_suffix (arg : Text) (args : List Text) : (readItem arg args).2 <:+ args := by
  unfold readItem
  split
  · split
    · exact List.suffix_refl _
    · split
      · exact nextValue_suffix args
      · exact List.suffix_refl _
  · exact List.suffix_refl _

theorem readItem_ne_help {arg : Text} {args : List Text}
    (h : isFlag arg = true → optionOf (stripPrefix arg) ≠ some .help) (value : Option Text) :
    (readItem arg args).1 ≠ .option .help value := by
  unfold readItem
  split
  · next hflag =>
    split
    · simp
    · next opt hopt =>
      have hne : opt ≠ .help := fun heq => h hflag (heq ▸ hopt)
      split <;> simp [hne]
  · simp

theorem items_ne_help {n : Nat} {args : List Text} (h : NoHelp args) (value : Option Text) :
    .option .help value ∉ itemsLoop n args := by
  induction n generalizing args with
  | zero => simp [itemsLoop]
  | succ n ih =>
    cases args with
    | nil => simp [itemsLoop]
    | cons arg args =>
      rw [itemsLoop, List.mem_cons, not_or]
      refine ⟨(readItem_ne_help (h arg List.mem_cons_self) value).symm, ih ?_⟩
      intro a ha
      exact h a (List.mem_cons_of_mem arg ((readItem_suffix arg args).subset ha))

/-- Without the help, only a trigger can throw. -/
theorem applies_of_converts {lib : Numbers F} {s : ConfigParser F} {item : Item}
    (hhelp : ∀ value, item ≠ .option .help value) (h : Converts lib s item) :
    ∃ s', applyItem lib s item = .ok s' := by
  cases item with
  | positional arg => exact ⟨_, rfl⟩
  | unknown => exact ⟨_, rfl⟩
  | option opt value =>
    cases value with
    | none =>
      cases opt with
      | help => exact absurd rfl (hhelp none)
      | _ => exact ⟨_, rfl⟩
    | some value =>
      cases opt with
      | help => exact absurd rfl (hhelp (some value))
      | trigger =>
        obtain ⟨n, hread⟩ := h.2 rfl
        simp only [applyItem, applyValue, stoi_eq_ok.mpr hread]
        exact ⟨_, rfl⟩
      | _ => exact ⟨_, rfl⟩

theorem runs_of_meets {lib : Numbers F} {s : ConfigParser F} {its : List Item}
    (hhelp : ∀ value, .option .help value ∉ its)
    (h : Meets (itemStep lib) (Converts lib) s its) :
    ∃ s', run (itemStep lib) s its = some s' := by
  induction its generalizing s with
  | nil => exact ⟨s, rfl⟩
  | cons item its ih =>
    have hitem : ∀ value, item ≠ .option .help value := by
      rintro value rfl
      exact hhelp value List.mem_cons_self
    obtain ⟨u, happly⟩ := applies_of_converts hitem h.1
    have hstep := itemStep_eq_some.mpr happly
    obtain ⟨t, ht⟩ := ih (fun value hmem => hhelp value (List.mem_cons_of_mem item hmem))
      (h.2 u hstep)
    exact ⟨t, run_cons_some.mpr ⟨u, hstep, ht⟩⟩

theorem laws_iff_meets {lib : Numbers F} {s t : ConfigParser F} {its : List Item}
    (h : run (itemStep lib) s its = some t) :
    (∀ pre item post u u', its = pre ++ item :: post → run (itemStep lib) s pre = some u →
      itemStep lib u item = some u' → Law lib u item u') ↔
      Meets (itemStep lib) (Converts lib) s its :=
  @steps_iff_meets _ _ (itemStep lib) (Converts lib) (Law lib) (fun _ => True)
    (fun _ _ _ _ _ => trivial)
    (fun _ _ _ _ hstep => law_iff_converts (itemStep_eq_some.mp hstep)) s t trivial its h

/-- A value that is no number in its range changes nothing in `loadTimingInput`. -/
theorem loadTimingInput_rejects (s : ConfigParser F) {mask : Int} (h : ¬ (0 ≤ mask ∧ mask ≤ 255)) :
    loadTimingInput mask s = s := by
  rw [loadTimingInput, if_pos (by omega)]

/-- `loadTcpPort` checks no range: a port is read as it is exactly when it has 16 bits. -/
theorem loadTcpPort_exact_iff (s : ConfigParser F) (port : Int) :
    ((loadTcpPort port s).config.serverPort.toNat : Int) = port ↔ 0 ≤ port ∧ port ≤ 65535 := by
  have hport : ((loadTcpPort port s).config.serverPort.toNat : Int) = port % 65536 := by
    show (((UInt16.ofInt port).toNat : Nat) : Int) = port % 65536
    simp only [UInt16.ofInt, UInt16.toNat_ofNat']
    omega
  rw [hport]
  omega

/-- A whole number is one of the numbers that a voltage takes. -/
theorem inRange_voltage {lib : Numbers F} {opt : CliOption}
    (hopt : opt = .bias ∨ ∃ channel, opt = .threshold channel) {value : Text} {n : Int}
    (hnumber : IsNumber value n) (hn : n.natAbs < 2 ^ 127) : InRange lib opt value := by
  rcases hopt with rfl | ⟨channel, rfl⟩
  · exact lib.stof_number value n hnumber hn
  · exact lib.stof_number value n hnumber hn

/-- **What the command line lets pass.** It is parsed as it should be exactly when each
value is in its range, or begins with a number too large for its conversion or with one whose
low bits are what is set already; a trigger that cannot be converted ends the parser with an
exception. -/
theorem parse_lawful_iff (lib : Numbers F) (args : List Text) (s : ConfigParser F)
    (h : NoHelp args) :
    Lawful lib args s ↔ Meets (itemStep lib) (Converts lib) s (items args) := by
  constructor
  · intro hlawful
    obtain ⟨t, ht⟩ := hlawful.returns
    exact (laws_iff_meets (parse_eq_ok.mp ht)).mp hlawful.items
  · intro hmeets
    obtain ⟨t, ht⟩ := runs_of_meets (items_ne_help h) hmeets
    exact ⟨⟨t, parse_eq_ok.mpr ht⟩, (laws_iff_meets ht).mpr hmeets,
      fun u mask hmask => loadTimingInput_rejects u hmask⟩

/-- The texts of the numbers that are not finite. -/
def notFinite : List Text := ["nan".toList, "inf".toList, "-inf".toList]

theorem readInteger_notFinite : ∀ text ∈ notFinite, readInteger text = none := by
  decide +kernel

/-- `std::stof` on whole numbers and on the texts of those that are not finite, which are
`none`, with an `unsigned long` of 32 bits. -/
def wholeNumbers : Numbers (Option Int) where
  unsignedLong := 32
  stof text :=
    if notFinite.contains (text.dropWhile Texts.isBlank) then .ok (none, [])
    else
      match readInteger text with
      | none => .error .invalidArgument
      | some (n, rest) => .ok (some n, rest)
  isFinite := Option.isSome
  long_enough := le_rfl
  stof_blanks value := by simp only [List.dropWhile_idempotent, readInteger_dropWhile]
  stof_rest value x rest h := by
    split at h
    · next hmem =>
      obtain ⟨-, rfl⟩ := Prod.mk.inj (Except.ok.inj h)
      refine ⟨List.nil_suffix, ?_⟩
      rintro rfl
      exact absurd hmem (by decide)
    · cases hread : readInteger value with
      | none =>
        rw [hread] at h
        cases h
      | some r =>
        rw [hread] at h
        obtain ⟨-, rfl⟩ := Prod.mk.inj (Except.ok.inj h)
        obtain ⟨_, -, -, hsuffix, hlt⟩ := readInteger_eq_some hread
        exact ⟨hsuffix, fun heq => absurd (congrArg List.length heq) hlt.ne⟩
  stof_no_number value h := by
    have hletter : ∀ text ∈ notFinite, 'n' ∈ text := by decide
    rw [if_neg, readInteger_no_digit fun c hc => (h c hc).1]
    intro hmem
    have hmem' := hletter _ (List.contains_iff_mem.mp hmem)
    exact (h 'n' ((List.dropWhile_suffix _).subset hmem')).2.1 rfl
  stof_number value n h _ := by
    refine ⟨some n, ?_, rfl⟩
    rw [if_neg, h]
    intro hmem
    have hread := readInteger_notFinite _ (List.contains_iff_mem.mp hmem)
    rw [readInteger_dropWhile, h] at hread
    cases hread
  stof_not_finite value h := by
    have hblanks : ∀ text ∈ notFinite, text.dropWhile Texts.isBlank ∈ notFinite := by decide
    exact ⟨none, if_pos (List.contains_iff_mem.mpr (hblanks value h)), rfl⟩

def defaults : ConfigParser (Option Int) where
  config := { thresholdVoltage := fun _ => some (-1), biasVoltage := some (-1) }

theorem port_and_trigger_lawful :
    Lawful wholeNumbers ["--dp".toList, "8080".toList, "-t".toList, "2".toList, "--th1".toList,
      "1".toList] defaults := by
  have hitems : items ["--dp".toList, "8080".toList, "-t".toList, "2".toList, "--th1".toList,
      "1".toList] = [.option .daemonPort (some "8080".toList), .option .trigger (some "2".toList),
        .option (.threshold firstChannel) (some "1".toList)] := by
    decide +kernel
  refine (parse_lawful_iff wholeNumbers _ defaults (by decide +kernel)).mpr ?_
  rw [hitems]
  have hport : Converts wholeNumbers defaults (.option .daemonPort (some "8080".toList)) :=
    ⟨.inl ⟨8080, by decide +kernel, by decide, by decide⟩, nofun⟩
  have htrigger : ∀ s, Converts wholeNumbers s (.option .trigger (some "2".toList)) := fun s =>
    ⟨.inl ⟨2, by decide +kernel, by decide, by decide⟩,
      fun _ => ⟨2, [], by decide +kernel, by decide, by decide⟩⟩
  have hthreshold : ∀ s, Converts wholeNumbers s
      (.option (.threshold firstChannel) (some "1".toList)) := fun s =>
    ⟨.inl (inRange_voltage (.inr ⟨_, rfl⟩) (n := 1) (by decide +kernel) (by decide)), nofun⟩
  exact ⟨hport, fun _ _ => ⟨htrigger _, fun _ _ => ⟨hthreshold _, fun _ _ => trivial⟩⟩⟩

/-- What `Lawful` asks of a single option. -/
theorem converts_of_lawful {lib : Numbers F} {args : List Text} {s : ConfigParser F} (item : Item)
    (hitems : items args = [item]) (h : Lawful lib args s) : Converts lib s item := by
  obtain ⟨t, ht⟩ := h.returns
  have hmeets := (laws_iff_meets (parse_eq_ok.mp ht)).mp h.items
  rw [hitems] at hmeets
  exact hmeets.1

/-- A trigger that is no number ends the program, a port above 65535 is cut, and a bias
voltage that is no number at all is taken. -/
theorem values_let_pass :
    ¬ Lawful wholeNumbers ["-t".toList, "xor".toList] defaults ∧
      ¬ Lawful wholeNumbers ["--dp".toList, "70000".toList] defaults ∧
      ¬ Lawful wholeNumbers ["--bias".toList, "nan".toList] defaults := by
  refine ⟨fun h => ?_, fun h => ?_, fun h => ?_⟩
  · obtain ⟨-, hread⟩ := converts_of_lawful (.option .trigger (some "xor".toList))
      (by decide +kernel) h
    obtain ⟨n, rest, hread, -⟩ := hread rfl
    have hfails : readInteger "xor".toList = none := by decide +kernel
    rw [hfails] at hread
    cases hread
  · have hread : readInteger "70000".toList = some (70000, []) := by decide +kernel
    obtain ⟨⟨n, hnumber, -, hle⟩ | hspares, -⟩ := converts_of_lawful
      (.option .daemonPort (some "70000".toList)) (by decide +kernel) h
    · obtain ⟨rfl, -⟩ := Prod.mk.inj (Option.some.inj (hread.symm.trans hnumber))
      omega
    · exact absurd (hspares 70000 [] hread) (by decide)
  · have hread : wholeNumbers.stof "nan".toList = .ok (none, []) := by decide +kernel
    obtain ⟨⟨x, hx, hfinite⟩ | hspares, -⟩ := converts_of_lawful
      (.option .bias (some "nan".toList)) (by decide +kernel) h
    · obtain ⟨rfl, -⟩ := Prod.mk.inj (Except.ok.inj (hread.symm.trans hx))
      cases hfinite
    · cases hspares none [] hread

end MuonDetector.App.ValueRanges
