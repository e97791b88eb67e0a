import MuonDetector.Core.PositionBindings

/-!
# The position mode that a new client is shown

The configuration is in the manager and, as a copy, in the data store. Commands and the
lock-in change it in the manager, and only `DatastoreStoreEvent` changes the copy, so the
two agree until one of them comes alone.
-/

namespace MuonDetector.Core.Positions

open MuonDetector.Library MuonDetector.Library.Messages MuonDetector.Library.Floats
open MuonDetector.Capnp.EventCodecs (GeoPosition PositionModeConfig)
open MuonDetector.Ublox.Events (GnssPosStruct UbxDopStruct)
open MuonDetector.Data (Histogram)
open MuonDetector.Utility MuonDetector.Utility.GeoPosManager

/-- A client that connects now is sent the configuration of the manager. -/
def InSync (s : Daemon) : Prop :=
  pollPositionModeConfig s = [.positionModeConfig s.geoPosManager.modeConfig]

instance inSyncDecidable (s : Daemon) : Decidable (InSync s) :=
  inferInstanceAs (Decidable (_ = _))

/-- Neither of the two is changed alone. -/
def KeepsConfig (overflows : Overflows) (s : Daemon) : Label → Prop
  | .positionModeCmd cmd => s.geoPosManager.modeConfig = cmd
  | .gnssPos event now filterNow => lockInAt overflows s.geoPosManager event now filterNow = none
  | .storePositionModeConfig modeConfig => s.geoPosManager.modeConfig = modeConfig
  | _ => True

instance keepsConfigDecidable (overflows : Overflows) (s : Daemon) :
    ∀ label, Decidable (KeepsConfig overflows s label)
  | .positionModeCmd _ => inferInstanceAs (Decidable (_ = _))
  | .gnssPos _ _ _ => inferInstanceAs (Decidable (_ = none))
  | .storePositionModeConfig _ => inferInstanceAs (Decidable (_ = _))
  | .navClock _ _ | .navStatus _ _ | .dop _ | .newClient | .histogramChanged _ _ => .isTrue trivial

theorem inSync_iff {s : Daemon} :
    InSync s ↔ s.positionModeConfig = some s.geoPosManager.modeConfig := by
  rw [InSync, pollPositionModeConfig]
  cases s.positionModeConfig <;> simp

theorem InSync.frame {s s' : Daemon} (hs : InSync s) (h : Frame s s') : InSync s' := by
  rw [inSync_iff] at hs ⊢
  rw [h.positionModeConfig, h.modeConfig, hs]

/-! ## Runs -/

theorem inSync_gnssPos {overflows : Overflows} {stack : Nat} {s s' : Daemon} (hs : InSync s)
    {event : GnssPosStruct} {now filterNow : Int}
    (h : handleGnssPos overflows stack s event now filterNow = some s') :
    InSync s' ↔ lockInAt overflows s.geoPosManager event now filterNow = none := by
  obtain ⟨manager, calls, hfix, -, hframe⟩ := handleGnssPos_some h
  rw [inSync_iff] at hs
  have hiff : InSync s' ↔ s.geoPosManager.modeConfig = manager.modeConfig := by
    rw [inSync_iff, hframe.positionModeConfig, hframe.modeConfig]
    show s.positionModeConfig = some manager.modeConfig ↔ _
    rw [hs, Option.some_inj]
  rw [hiff]
  rcases fix_cases hfix with ⟨hauto, hconfig⟩ | ⟨pos, hlock, hconfig, -⟩ | ⟨hlock, hconfig, -, -⟩
  · refine iff_of_true hconfig.symm ?_
    cases hlock : lockInAt overflows s.geoPosManager event now filterNow with
    | none => rfl
    | some pos => cases hauto.symm.trans (lockInAt_some hlock).1
  · refine iff_of_false ?_ (by simp [hlock])
    intro heq
    have hmode := congrArg PositionModeConfig.mode (heq.trans hconfig)
    cases (lockInAt_some hlock).1.symm.trans hmode
  · exact iff_of_true hconfig.symm hlock

theorem inSync_step {overflows : Overflows} {stack : Nat} (s : Daemon) (label : Label)
    (s' : Daemon) (hs : InSync s) (h : step overflows stack s label = some s') :
    InSync s' ↔ KeepsConfig overflows s label := by
  have hstored := inSync_iff.mp hs
  cases label with
  | positionModeCmd cmd =>
    obtain rfl := Option.some.inj h
    rw [inSync_iff, KeepsConfig]
    show s.positionModeConfig = some cmd ↔ _
    rw [hstored, Option.some_inj]
  | gnssPos event now filterNow => exact inSync_gnssPos hs h
  | storePositionModeConfig modeConfig =>
    obtain rfl := Option.some.inj h
    rw [inSync_iff, KeepsConfig]
    show some modeConfig = some s.geoPosManager.modeConfig ↔ _
    rw [Option.some_inj, eq_comm]
  | navClock | navStatus | dop =>
    obtain rfl := Option.some.inj h
    exact iff_of_true hs trivial
  | newClient =>
    obtain rfl := Option.some.inj h
    obtain ⟨published, hclient⟩ := handleNewClient_eq overflows s
    rw [hclient]
    exact iff_of_true (hs.frame ⟨rfl, rfl, rfl, rfl, rfl⟩) trivial
  | histogramChanged name histo =>
    obtain rfl := Option.some.inj h
    exact iff_of_true (hs.frame (setHistogram_frame s histo name)) trivial

theorem inSync_setup (modeConfig : PositionModeConfig) : InSync (setup modeConfig) := rfl

/-- **A client is sent the configuration of the manager at every time of a run, exactly when no
command changes the configuration, no fix concludes the lock-in, and nothing else is stored.** -/
theorem position_mode_shown_iff (overflows : Overflows) (stack : Nat)
    (modeConfig : PositionModeConfig) (labels : List Label) (t : Daemon)
    (h : run overflows stack (setup modeConfig) labels = some t) :
    (∀ pre u, pre <+: labels → run overflows stack (setup modeConfig) pre = some u → InSync u) ↔
      Machine.Meets (step overflows stack) (KeepsConfig overflows) (setup modeConfig) labels :=
  Machine.always_iff_meets inSync_step (inSync_setup modeConfig) h

/-- A fix in auto mode. -/
theorem position_mode_shown_auto :
    ∃ t, run zeroes 2 (setup autoMode) [.dop goodDop, .navStatus 3 0, .gnssPos goodFix 0 0] =
      some t ∧ InSync t := by
  have hruns : (run zeroes 2 (setup autoMode)
      [.dop goodDop, .navStatus 3 0, .gnssPos goodFix 0 0]).isSome = true := by decide +kernel
  obtain ⟨t, ht⟩ := Option.isSome_iff_exists.mp hruns
  exact ⟨t, ht, (position_mode_shown_iff zeroes 2 autoMode _ t ht).mpr (by decide +kernel) _ _
    (List.prefix_refl _) ht⟩

/-- A client that connects after a command, or after a lock-in, is shown the old mode. -/
theorem position_mode_stale :
    (∃ t, run zeroes 2 (setup autoMode) [.positionModeCmd lockInMode] = some t ∧ ¬InSync t) ∧
    ∃ t, run zeroes 2 (setup lockInMode) [.navStatus 3 0, .gnssPos goodFix 0 0] = some t ∧
      ¬InSync t := by
  have hlockIn : (run zeroes 2 (setup lockInMode) [.navStatus 3 0, .gnssPos goodFix 0 0]).any
      (fun t => !decide (InSync t)) = true := by decide +kernel
  obtain ⟨t, ht, hstale⟩ := (Option.any_eq_true _ _).mp hlockIn
  exact ⟨⟨_, rfl, by decide +kernel⟩, t, ht, by simpa using hstale⟩

end MuonDetector.Core.Positions
