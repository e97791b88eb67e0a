import MuonDetector.Hardware.Dac
import MuonDetector.Library.Exact

/-!
# The voltage that a code stands for

`MCP4728::setVoltage` rounds the voltage to a code of 16 bits, in steps of half a millivolt or
of 4096ths of the supply, before it looks at the range. Calculated exactly, the register gets
a code within one step of the voltage, unless 16 bits are too few for the rounded number.
-/

namespace MuonDetector.Hardware.DacVoltage

open MuonDetector.Library.Floats MuonDetector.Library.Exact
open MuonDetector.Hardware.Dac

variable {K : Type} [Field K] [LinearOrder K] [FloorRing K] [LongOverflow K]

/-- The voltage that all codes are parts of. -/
def reference : Vref → K
  | .internal => 2.048
  | .vdd => vddRefVoltage

/-- What a code counts with the lower gain. -/
def unit (vref : Vref) : K := reference vref / 4096

/-- The number that is rounded to the code. -/
def scaled (vref : Vref) (voltage : K) : K :=
  match vref with
  | .internal => voltage * 2000
  | .vdd => voltage * 4096 / 3.3

/-- The greatest number that is accepted. With the internal reference the higher gain doubles
the range. -/
def limit : Vref → Int
  | .internal => 8191
  | .vdd => 4095

/-- What is left of the rounded number in 16 bits. -/
def rest (vref : Vref) (voltage : K) : Int := lround (scaled vref voltage) % 2 ^ 16

/-- One step of the selected gain. -/
def step (data : DacChannel) : K := code2voltage { data with value := 1 }

/-- Some code of 12 bits is within one step of the voltage. -/
def Representable (vref : Vref) (voltage : K) : Prop :=
  ∃ data : DacChannel, data.vref = vref ∧ data.value ≤ 0xfff ∧
    |code2voltage data - voltage| ≤ step data

/-- The device and the answer after `setVoltage` are as they should be. -/
structure Sets (d : Mcp4728) (channel : Fin 4) (voltage : K) (d' : Mcp4728) (success : Bool) :
    Prop where
  encodes : success = true →
    |code2voltage (output d'.chip channel) - voltage| ≤ step (output d'.chip channel)
  vref : (output d'.chip channel).vref = (output d.chip channel).vref
  pd : (output d'.chip channel).pd = (output d.chip channel).pd
  others : ∀ k ≠ channel, output d'.chip k = output d.chip k
  eeprom : stored d'.chip = stored d.chip
  readBack : (parseChannelData d' d'.chip.read).channelSetting = d'.channelSetting ∧
    (success = true → ∃ value gain, d'.channelSetting channel =
      { d.channelSetting channel with value := value, gain := gain })
  refused : ¬ Representable (output d.chip channel).vref voltage → success = false
  silent : success = false → d'.chip = d.chip

/-- The rounded number is in the range, or what is left of it in 16 bits is outside as well. -/
def Encodable (vref : Vref) (voltage : K) : Prop :=
  roundAway (scaled vref voltage) ≤ limit vref ∨ limit vref < rest vref voltage

/-! ## Codes -/

/-- The factor of the gain, which the supply as a reference ignores. -/
def factor (gain : Gain) (vref : Vref) : Nat := if gain = .gain2 ∧ vref ≠ .vdd then 2 else 1

theorem factor_le (gain : Gain) (vref : Vref) : 1 ≤ factor gain vref ∧ factor gain vref ≤ 2 := by
  unfold factor
  split_ifs <;> omega

theorem code2voltage_exact (data : DacChannel) : (code2voltage data : K) =
    data.value.toNat * (factor data.gain data.vref * unit data.vref) := by
  have hvoltage : (code2voltage data : K) =
      if data.gain = .gain2 ∧ data.vref ≠ .vdd then
        reference data.vref * ((data.value.toNat : Int) : K) / 4096.0 * 2.0
      else reference data.vref * ((data.value.toNat : Int) : K) / 4096.0 := by
    obtain ⟨pd, gain, vref, eeprom, value⟩ := data
    cases vref <;> rfl
  have hwhole : (4096.0 : K) = 4096 ∧ (2.0 : K) = 2 := by norm_num
  rw [hvoltage, hwhole.1, hwhole.2, factor, unit]
  split_ifs
  · push_cast
    ring
  · push_cast
    ring

theorem step_exact (data : DacChannel) :
    (step data : K) = factor data.gain data.vref * unit data.vref := by
  rw [step, code2voltage_exact]
  show ((1 : Nat) : K) * (factor data.gain data.vref * unit data.vref) = _
  rw [Nat.cast_one, one_mul]

theorem scaled_mul_unit (vref : Vref) (voltage : K) :
    scaled vref voltage * unit vref = voltage := by
  cases vref with
  | internal =>
    have hunit : (unit .internal : K) = 1 / 2000 := by norm_num [unit, reference]
    rw [hunit]
    simp only [scaled]
    ring
  | vdd =>
    have hunit : (unit .vdd : K) = 3.3 / 4096 := rfl
    have hreference : (3.3 : K) ≠ 0 := by norm_num
    rw [hunit]
    simp only [scaled]
    field_simp

theorem toNat_ofInt (i : Int) : ((UInt16.ofInt i).toNat : Int) = i % 2 ^ 16 := by
  have hsize : (i % 2 ^ 16).toNat < UInt16.size := by
    show _ < 65536
    omega
  rw [UInt16.ofInt, UInt16.toNat_ofNat_of_lt' hsize]
  omega

/-- The code and the gain keep the rounded number but for the bit that is shifted out. -/
theorem voltageCode_exact (vref : Vref) (voltage : K) : ∃ value gain,
    voltageCode vref voltage = (value, gain) ∧ (value > 0xfff ↔ limit vref < rest vref voltage) ∧
    value.toNat * factor gain vref ≤ rest vref voltage ∧
    rest vref voltage < value.toNat * factor gain vref + factor gain vref := by
  cases vref with
  | vdd =>
    obtain ⟨value, hcode, hvalue⟩ : ∃ value : UInt16, voltageCode .vdd voltage = (value, .gain1) ∧
        (value.toNat : Int) = rest .vdd voltage := by
      refine ⟨_, rfl, ?_⟩
      show ((UInt16.ofInt (lround (voltage * ((4096 : Int) : K) / 3.3))).toNat : Int) = _
      rw [toNat_ofInt, rest, scaled, Int.cast_ofNat]
    have hfactor : factor .gain1 .vdd = 1 := rfl
    refine ⟨value, .gain1, hcode, ?_⟩
    rw [hfactor]
    refine ⟨?_, by omega, by omega⟩
    rw [← hvalue, gt_iff_lt, UInt16.lt_iff_toNat_lt]
    exact Nat.cast_lt.symm
  | internal =>
    obtain ⟨value, hcode, hvalue⟩ : ∃ value : UInt16, voltageCode .internal voltage =
        (if value > 0xfff then (value >>> 1, .gain2) else (value, .gain1)) ∧
        (value.toNat : Int) = rest .internal voltage := by
      refine ⟨_, rfl, ?_⟩
      show ((UInt16.ofInt (lround (voltage * ((2000 : Int) : K)))).toNat : Int) = _
      rw [toNat_ofInt, rest, scaled, Int.cast_ofNat]
    by_cases hhigh : value > 0xfff
    · have hhalf : (value >>> 1).toNat = value.toNat / 2 := by
        rw [UInt16.toNat_shiftRight]
        exact Nat.shiftRight_eq_div_pow _ 1
      have hfactor : factor .gain2 .internal = 2 := rfl
      refine ⟨value >>> 1, .gain2, by rw [hcode, if_pos hhigh], ?_⟩
      rw [hfactor]
      refine ⟨?_, by omega, by omega⟩
      rw [← hvalue, gt_iff_lt, UInt16.lt_iff_toNat_lt, hhalf]
      show 4095 < value.toNat / 2 ↔ (8191 : Int) < value.toNat
      omega
    · have hfactor : factor .gain1 .internal = 1 := rfl
      refine ⟨value, .gain1, by rw [hcode, if_neg hhigh], ?_⟩
      rw [hfactor]
      refine ⟨?_, by omega, by omega⟩
      rw [gt_iff_lt, UInt16.lt_iff_toNat_lt] at hhigh ⊢
      have hlow : ¬ 4095 < value.toNat := hhigh
      rw [← hvalue]
      show 4095 < value.toNat ↔ (8191 : Int) < value.toNat
      omega

/-! ## The device -/

theorem parseChannelData_read {d : Mcp4728} (h : Synced d) :
    (parseChannelData d d.chip.read).channelSetting = d.channelSetting := by
  rw [h.output]
  funext channel
  obtain ⟨hhigh, hlow, -, -⟩ := read_bytes d.chip channel
  simp only [parseChannelData, hhigh, hlow, h.output, output]
  rfl

/-- A voltage is refused before anything is done, or the code and the gain are written. -/
theorem setVoltage_cases (clock : Nat → Nat) {d : Mcp4728} (h : Synced d) (channel : Fin 4)
    {voltage : K} (hvoltage : 0 ≤ voltage) :
    (setVoltage clock d channel voltage = (d, false) ∧
      limit (output d.chip channel).vref < rest (output d.chip channel).vref voltage) ∨
    ∃ d' data, setVoltage clock d channel voltage = (d', true) ∧ Synced d' ∧
      output d'.chip = Function.update (output d.chip) channel data ∧
      stored d'.chip = stored d.chip ∧
      data = { output d.chip channel with value := data.value, gain := data.gain } ∧
      data.value ≤ 0xfff ∧ rest data.vref voltage ≤ limit data.vref ∧
      data.value.toNat * factor data.gain data.vref ≤ rest data.vref voltage ∧
      rest data.vref voltage < data.value.toNat * factor data.gain data.vref +
        factor data.gain data.vref := by
  have hzero : ¬ voltage < 0.0 := by
    norm_num
    exact hvoltage
  obtain ⟨value, gain, hcode, hrange, hlow, hhigh⟩ :=
    voltageCode_exact (output d.chip channel).vref voltage
  by_cases hvalue : value > 0xfff
  · refine .inl ⟨?_, hrange.mp hvalue⟩
    simp [setVoltage, setVoltageTo, hzero, h.output, hcode, hvalue]
  · obtain ⟨d', hset, hsynced, houtput, hstored⟩ := setVoltage_synced clock h channel voltage
    have hencoded : encoded (output d.chip channel) voltage =
        some { output d.chip channel with value := value, gain := gain } := by
      simp [encoded, hzero, hcode, hvalue]
    rw [hencoded] at hset
    rw [written, hencoded] at houtput
    exact .inr ⟨d', { output d.chip channel with value := value, gain := gain }, hset, hsynced,
      houtput, hstored, rfl, UInt16.not_lt.mp hvalue,
      not_lt.mp fun hlimit => hvalue (hrange.mpr hlimit), hlow, hhigh⟩

/-! ## Voltages -/

variable [IsStrictOrderedRing K]

theorem unit_pos (vref : Vref) : (0 : K) < unit vref := by
  cases vref with
  | internal => norm_num [unit, reference]
  | vdd =>
    have hunit : (unit .vdd : K) = 3.3 / 4096 := rfl
    rw [hunit]
    norm_num

/-- The voltage of a code is no further from the rounded number than the gain is coarse. -/
theorem code2voltage_near {data : DacChannel} {number : Int}
    (hlow : data.value.toNat * factor data.gain data.vref ≤ number)
    (hhigh : number < data.value.toNat * factor data.gain data.vref +
      factor data.gain data.vref) :
    0 ≤ number * (unit data.vref : K) - code2voltage data ∧
      number * (unit data.vref : K) - code2voltage data ≤ step data - unit data.vref := by
  have hunit := unit_pos (K := K) data.vref
  have hlow' : ((data.value.toNat : K) * factor data.gain data.vref) ≤ number := by
    exact_mod_cast hlow
  have hhigh' : (number : K) + 1 ≤ data.value.toNat * factor data.gain data.vref +
      factor data.gain data.vref := by
    exact_mod_cast hhigh
  have hdifference : number * (unit data.vref : K) - code2voltage data =
      (number - data.value.toNat * factor data.gain data.vref) * unit data.vref := by
    rw [code2voltage_exact]
    ring
  rw [hdifference, step_exact]
  constructor
  · exact mul_nonneg (sub_nonneg.mpr hlow') hunit.le
  · calc (number - data.value.toNat * factor data.gain data.vref : K) * unit data.vref
        ≤ (factor data.gain data.vref - 1) * unit data.vref :=
          mul_le_mul_of_nonneg_right (by linarith) hunit.le
      _ = factor data.gain data.vref * unit data.vref - unit data.vref := by ring

/-- In the range the rounded number is kept. -/
theorem rest_eq {vref : Vref} {voltage : K} (hvoltage : 0 ≤ voltage)
    (h : roundAway (scaled vref voltage) ≤ limit vref) :
    rest vref voltage = roundAway (scaled vref voltage) := by
  have hscaled : 0 ≤ scaled vref voltage := by
    have hproduct := scaled_mul_unit vref voltage
    rw [← hproduct] at hvoltage
    exact nonneg_of_mul_nonneg_left hvoltage (unit_pos vref)
  have hnonneg : 0 ≤ roundAway (scaled vref voltage) := by
    rw [← not_lt, roundAway_neg, not_le]
    linarith
  have hlimit : limit vref ≤ 8191 := by cases vref <;> decide
  have hlong : inLong (roundAway (scaled vref voltage)) := ⟨by omega, by omega⟩
  rw [rest, lround, if_pos hlong]
  omega

/-- A number that gets into the range only in 16 bits is that of a voltage far above it. -/
theorem scaled_far {vref : Vref} {voltage : K}
    (h : limit vref < roundAway (scaled vref voltage)) (hrest : rest vref voltage ≤ limit vref) :
    65535 ≤ scaled vref voltage := by
  have hlimit : 0 < limit vref := by cases vref <;> decide
  have hround : 65536 ≤ roundAway (scaled vref voltage) := by
    by_cases hlong : inLong (roundAway (scaled vref voltage))
    · rw [rest, lround, if_pos hlong] at hrest
      omega
    · rw [inLong] at hlong
      omega
  have hhalf := (le_roundAway (by decide)).mp hround
  push_cast at hhalf
  linarith

/-- In the range the rounded number is within half a unit of the voltage. -/
theorem rest_near {vref : Vref} {voltage : K} (hvoltage : 0 ≤ voltage)
    (h : roundAway (scaled vref voltage) ≤ limit vref) :
    |voltage - rest vref voltage * unit vref| ≤ 1 / 2 * unit vref := by
  have hunit := unit_pos (K := K) vref
  calc |voltage - rest vref voltage * unit vref|
      = |scaled vref voltage - rest vref voltage| * unit vref := by
        rw [← abs_of_pos hunit, ← abs_mul, abs_of_pos hunit, sub_mul, scaled_mul_unit]
    _ ≤ 1 / 2 * unit vref := by
        rw [rest_eq hvoltage h]
        exact mul_le_mul_of_nonneg_right (abs_sub_roundAway _) hunit.le

/-- A number that gets into the range only in 16 bits is more than two units too low. -/
theorem rest_far {vref : Vref} {voltage : K}
    (h : limit vref < roundAway (scaled vref voltage)) (hrest : rest vref voltage ≤ limit vref) :
    rest vref voltage * unit vref + 4 * unit vref < voltage := by
  have hunit := unit_pos (K := K) vref
  have hlimit : limit vref ≤ 8191 := by cases vref <;> decide
  have hrest' : (rest vref voltage : K) ≤ 8191 := by exact_mod_cast hrest.trans hlimit
  calc (rest vref voltage : K) * unit vref + 4 * unit vref
      ≤ 8191 * unit vref + 4 * unit vref := by gcongr
    _ < 65535 * unit vref := by linarith
    _ ≤ scaled vref voltage * unit vref :=
        mul_le_mul_of_nonneg_right (scaled_far h hrest) hunit.le
    _ = voltage := scaled_mul_unit vref voltage

theorem step_le (data : DacChannel) : (step data : K) ≤ 2 * unit data.vref := by
  have hfactor : (factor data.gain data.vref : K) ≤ 2 := by
    exact_mod_cast (factor_le data.gain data.vref).2
  rw [step_exact]
  exact mul_le_mul_of_nonneg_right hfactor (unit_pos data.vref).le

/-- A code that is accepted is within one step of the voltage exactly where the rounded number
was in the range. -/
theorem near_iff {data : DacChannel} {voltage : K} (hvoltage : 0 ≤ voltage)
    (haccepted : rest data.vref voltage ≤ limit data.vref)
    (hlow : data.value.toNat * factor data.gain data.vref ≤ rest data.vref voltage)
    (hhigh : rest data.vref voltage < data.value.toNat * factor data.gain data.vref +
      factor data.gain data.vref) :
    |code2voltage data - voltage| ≤ step data ↔ Encodable data.vref voltage := by
  have hunit := unit_pos (K := K) data.vref
  obtain ⟨hnear, hnear'⟩ := code2voltage_near (K := K) hlow hhigh
  by_cases hround : roundAway (scaled data.vref voltage) ≤ limit data.vref
  · refine iff_of_true ?_ (.inl hround)
    have hrounded := rest_near hvoltage hround
    rw [abs_le] at hrounded ⊢
    constructor
    · linarith
    · linarith
  · refine iff_of_false ?_ (not_or.mpr ⟨hround, not_lt.mpr haccepted⟩)
    have hfar := rest_far (not_le.mp hround) haccepted
    have hstep : (step data : K) ≤ 2 * unit data.vref := step_le data
    intro hclose
    obtain ⟨hclose, -⟩ := abs_le.mp hclose
    linarith

/-! ## Setting a voltage -/

/-- **Setting a voltage** does what it should exactly where 16 bits have room for the rounded
voltage, or what they keep of it is refused as well. -/
theorem sets_iff (clock : Nat → Nat) {d : Mcp4728} (h : Synced d) (channel : Fin 4) {voltage : K}
    (hvoltage : 0 ≤ voltage) :
    Sets d channel voltage (setVoltage clock d channel voltage).1
      (setVoltage clock d channel voltage).2 ↔
    Encodable (output d.chip channel).vref voltage := by
  rcases setVoltage_cases clock h channel hvoltage with ⟨hset, hlimit⟩ |
    ⟨d', data, hset, hsynced, houtput, hstored, hdata, hvalue, haccepted, hlow, hhigh⟩
  · rw [hset]
    refine iff_of_true ?_ (.inr hlimit)
    exact {
      encodes := fun hsuccess => nomatch hsuccess
      vref := rfl
      pd := rfl
      others := fun k hk => rfl
      eeprom := rfl
      readBack := ⟨parseChannelData_read h, fun hsuccess => nomatch hsuccess⟩
      refused := fun hrepresentable => rfl
      silent := fun hsuccess => rfl }
  · have hregister : output d'.chip channel = data := by rw [houtput, Function.update_self]
    have hvref : data.vref = (output d.chip channel).vref := by rw [hdata]
    have hnear := near_iff hvoltage haccepted hlow hhigh
    rw [hset, ← hvref, ← hnear]
    constructor
    · intro hsets
      have hclose := hsets.encodes rfl
      rwa [hregister] at hclose
    · intro hclose
      exact {
        encodes := by
          intro hsuccess
          rwa [hregister]
        vref := by rw [hregister, hvref]
        pd := by rw [hregister, hdata]
        others := by
          intro k hk
          rw [houtput, Function.update_of_ne hk]
        eeprom := hstored
        readBack := by
          refine ⟨parseChannelData_read hsynced, ?_⟩
          intro hsuccess
          refine ⟨data.value, data.gain, ?_⟩
          rw [hsynced.output, hregister, h.output, ← hdata]
        refused := fun hrepresentable => absurd ⟨data, hvref, hvalue, hclose⟩ hrepresentable
        silent := fun hsuccess => nomatch hsuccess }

/-- A chip that starts with the internal reference, when its registers were read. -/
def atStart : Mcp4728 :=
  readRegisters id { chip := { dac := fun _ => ⟨0x80, 0⟩, eeprom := fun _ => ⟨0x80, 0⟩ } }

theorem atStart_synced : Synced atStart :=
  synced_readRegisters id (.inr ⟨rfl, fun _ => rfl⟩)

theorem sets_iff_three :
    Synced atStart ∧ (0 : ℚ) ≤ 3 ∧ Sets atStart 2 (3 : ℚ) (setVoltage id atStart 2 (3 : ℚ)).1
      (setVoltage id atStart 2 (3 : ℚ)).2 :=
  ⟨atStart_synced, by norm_num,
    (sets_iff id atStart_synced 2 (by norm_num)).mpr (.inl (by decide +kernel))⟩

/-- 33 V are accepted, and set as 0.232 V. -/
theorem bias_wraps :
    (setVoltage id atStart 2 (33 : ℚ)).2 = true ∧
      code2voltage (output (setVoltage id atStart 2 (33 : ℚ)).1.chip 2) = (0.232 : ℚ) ∧
      ¬ Sets atStart 2 (33 : ℚ) (setVoltage id atStart 2 (33 : ℚ)).1
        (setVoltage id atStart 2 (33 : ℚ)).2 := by
  have hsuccess : (setVoltage id atStart 2 (33 : ℚ)).2 = true := by decide +kernel
  refine ⟨hsuccess, by decide +kernel, ?_⟩
  intro hsets
  have hclose := hsets.encodes hsuccess
  revert hclose
  decide +kernel

end MuonDetector.Hardware.DacVoltage
