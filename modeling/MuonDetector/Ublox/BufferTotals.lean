import MuonDetector.Ublox.Satellites

/-!
# Totals of the receive buffers

Each of the six targets has its usage and its peak usage in percent, and the event has a
total of either. A total is summed in a byte, and six targets can use more percent than a
byte holds.
-/

namespace MuonDetector.Ublox.BufferTotals

open MuonDetector.Library MuonDetector.Library.Reader MuonDetector.Library.Fields
open MuonDetector.Utility.HelperFunctions MuonDetector.Ublox.Message MuonDetector.Ublox.Events
open MuonDetector.Ublox.MessageProcessor MuonDetector.Ublox.ReadBounds
open MuonDetector.Ublox.TimeMark (fieldAt)
open MuonDetector.Ublox.Satellites (gives_byte)

/-- The exact sum of percentages. -/
def total (percentages : List UInt8) : Nat := (percentages.map UInt8.toNat).sum

/-- The usages and the peak usages that a payload says. -/
def usages (payload : List UInt8) : List UInt8 := bytesAt payload 12 6
def peakUsages (payload : List UInt8) : List UInt8 := bytesAt payload 18 6

/-- A sum in a byte is the exact one up to multiples of 256. -/
theorem toNat_foldl_add {α : Type} (value : α → UInt8) (targets : List α) (start : UInt8) :
    (targets.foldl (fun sum t => sum + value t) start).toNat =
      (start.toNat + total (targets.map value)) % 256 := by
  induction targets generalizing start with
  | nil => exact (Nat.mod_eq_of_lt start.toNat_lt).symm
  | cons t targets ih =>
    have htotal : total ((t :: targets).map value) =
        (value t).toNat + total (targets.map value) := by
      simp [total]
    rw [List.foldl_cons, ih, UInt8.toNat_add, htotal]
    omega

/-- A sum in a byte is exact when it fits. -/
theorem sum_exact_iff {α : Type} (value : α → UInt8) (targets : List α) :
    (targets.foldl (fun sum t => sum + value t) 0).toNat = total (targets.map value) ↔
      total (targets.map value) ≤ 255 := by
  have hsum := toNat_foldl_add value targets 0
  have hzero : (0 : UInt8).toNat = 0 := rfl
  rw [hsum, hzero, Nat.zero_add]
  omega

/-! ## The decoder -/

section

variable {c : Bool} {payload : List UInt8}

/-- The target at an index. -/
def target (c : Bool) (payload : List UInt8) (i : Nat) : UInt16 × UInt8 × UInt8 :=
  (fieldAt UInt16 c payload (2 * i), payload.getD (i + 12) 0, payload.getD (i + 18) 0)

theorem gives_bufTarget (hlen : 24 ≤ payload.length) {i : Nat} (hi : i < nrTargets) :
    Gives payload (bufTarget c i) (target c payload i) := by
  have hbyte : ∀ k, k < payload.length → Gives payload (get UInt8 c k) (payload.getD k 0) := by
    intro k hk
    have hget : payload.getD k 0 = payload[k] := by simp [hk]
    rw [hget]
    exact gives_byte hk
  have hsix : i < 6 := hi
  have hpending : Gives payload (get UInt16 c (2 * i)) (fieldAt UInt16 c payload (2 * i)) :=
    gives_getEndian .little c (by rw [size_uint16]; omega)
  exact hpending.bind ((hbyte (i + 12) (by omega)).bind ((hbyte (i + 18) (by omega)).bind
    (Gives.pure payload _)))

/-- The event of a payload. -/
def received (c : Bool) (payload : List UInt8) : MonRx :=
  let targets := (List.range nrTargets).map (target c payload)
  { pending := targets.map fun t => t.1
    usage := targets.map fun t => t.2.1
    peakUsage := targets.map fun t => t.2.2
    tUsage := targets.foldl (fun sum t => sum + t.2.1) 0
    tPeakUsage := targets.foldl (fun sum t => sum + t.2.2) 0 }

theorem gives_decode (hlen : 24 ≤ payload.length) (s : ProcessorState) :
    Gives payload (decode c s MsgId.monRxBuf) (some (.monRx (received c payload)), s) := by
  apply gives_stateless .monRx rfl
  have htargets : ((List.range nrTargets).map (target c payload)).length = nrTargets := by
    rw [List.length_map, List.length_range]
  have htimes : Gives payload (times nrTargets fun i => bufTarget c i)
      ((List.range nrTargets).map (target c payload)) := by
    rw [← htargets]
    apply Gives.times
    intro i hi
    have hlt : i < nrTargets := by rwa [htargets] at hi
    simpa using gives_bufTarget hlen hlt
  exact htimes.bind (Gives.pure payload _)

/-- Six bytes of a payload, one for each target. -/
theorem targets_bytes (hlen : 24 ≤ payload.length) (off : Nat) (hoff : off ≤ 18) :
    ((List.range nrTargets).map fun i => payload.getD (i + off) 0) = bytesAt payload off 6 := by
  have hsix : nrTargets = 6 := rfl
  apply List.ext_getElem
  · simp [bytesAt, hsix]
    omega
  · intro i hi _
    rw [List.length_map, List.length_range, hsix] at hi
    have hlt : i + off < payload.length := by omega
    have hget : payload[off + i] = payload[i + off] := getElem_congr_idx (Nat.add_comm off i)
    simp [bytesAt, hlt, hget]

theorem received_usage (hlen : 24 ≤ payload.length) :
    (received c payload).usage = usages payload ∧
      (received c payload).peakUsage = peakUsages payload := by
  have husage := targets_bytes hlen 12 (by decide)
  have hpeak := targets_bytes hlen 18 (by decide)
  simp only [received, List.map_map]
  exact ⟨husage, hpeak⟩

end

/-- **Totals of the receive buffers.** The event of a payload has the usages of the targets,
and its totals are their exact sums exactly when both sums fit in a byte. -/
theorem totals_exact_iff (c : Bool) (payload : List UInt8) (hlen : 24 ≤ payload.length) :
    ∃ data, (∀ s, (processMessage c s ⟨MsgId.monRxBuf, payload⟩).1 =
        some (some (.monRx data), s)) ∧
      data.usage = usages payload ∧ data.peakUsage = peakUsages payload ∧
      ((data.tUsage.toNat = total data.usage ∧ data.tPeakUsage.toNat = total data.peakUsage) ↔
        total (usages payload) ≤ 255 ∧ total (peakUsages payload) ≤ 255) := by
  obtain ⟨husage, hpeak⟩ := received_usage (c := c) hlen
  refine ⟨received c payload, gives_decode hlen, husage, hpeak, ?_⟩
  rw [← husage, ← hpeak]
  exact and_congr (sum_exact_iff _ _) (sum_exact_iff _ _)

/-- Every target uses a tenth and had used a third. -/
theorem totals_exact_light :
    ∃ data, (processMessage true {} ⟨MsgId.monRxBuf, List.replicate 12 0 ++
        (List.replicate 6 10 ++ List.replicate 6 33)⟩).1 = some (some (.monRx data), {}) ∧
      data.tUsage.toNat = total data.usage ∧ data.tPeakUsage.toNat = total data.peakUsage := by
  obtain ⟨data, hdata, -, -, h⟩ := totals_exact_iff true
    (List.replicate 12 0 ++ (List.replicate 6 10 ++ List.replicate 6 33)) (by decide)
  exact ⟨data, hdata {}, h.mpr (by decide)⟩

/-- With all targets full the total is 88 percent. -/
theorem totals_wrap :
    ∃ data, (processMessage true {} ⟨MsgId.monRxBuf, List.replicate 12 0 ++
        List.replicate 12 100⟩).1 = some (some (.monRx data), {}) ∧
      (∀ percentage ∈ data.usage ++ data.peakUsage, percentage ≤ 100) ∧
      data.tUsage.toNat = 88 ∧ total data.usage = 600 := by
  refine ⟨received true (List.replicate 12 0 ++ List.replicate 12 100),
    gives_decode (by decide) {}, ?_⟩
  decide +kernel

end MuonDetector.Ublox.BufferTotals
