import Mathlib.Order.Lattice

/-!
# Timers with queued completions

A wait on a timer is pending until the timer expires or the wait is cancelled. Either way
its completion is queued, and a completion that is in the queue stays there, whatever
becomes of the timer. Arming the timer anew cancels the waits that are pending.
-/

namespace MuonDetector.Library.Timers

/-- The numbers of waits that are pending, and of those whose completions are queued: for an
expiry and for a cancellation. -/
structure Timer where
  pending : Nat := 0
  expired : Nat := 0
  aborted : Nat := 0
  deriving DecidableEq, Repr

namespace Timer

def cancel (t : Timer) : Timer := { t with pending := 0, aborted := t.aborted + t.pending }

/-- Sets the expiry, which cancels the waits, and waits. -/
def arm (t : Timer) : Timer := { t.cancel with pending := 1 }

def expire (t : Timer) : Option Timer :=
  if 0 < t.pending then some { t with pending := t.pending - 1, expired := t.expired + 1 }
  else none

/-- Takes the completion of an expired wait from the queue. -/
def takeExpired (t : Timer) : Option Timer :=
  if 0 < t.expired then some { t with expired := t.expired - 1 } else none

/-- Takes the completion of a cancelled wait from the queue. -/
def takeAborted (t : Timer) : Option Timer :=
  if 0 < t.aborted then some { t with aborted := t.aborted - 1 } else none

variable {t t' : Timer}

theorem expire_spec (h : t.expire = some t') :
    0 < t.pending ∧ t'.pending = t.pending - 1 ∧ t'.expired = t.expired + 1 := by
  rw [expire] at h
  split at h
  · next hpending =>
    cases h
    exact ⟨hpending, rfl, rfl⟩
  · cases h

theorem takeExpired_spec (h : t.takeExpired = some t') :
    0 < t.expired ∧ t'.pending = t.pending ∧ t'.expired = t.expired - 1 := by
  rw [takeExpired] at h
  split at h
  · next hexpired =>
    cases h
    exact ⟨hexpired, rfl, rfl⟩
  · cases h

theorem takeAborted_spec (h : t.takeAborted = some t') :
    t'.pending = t.pending ∧ t'.expired = t.expired := by
  rw [takeAborted] at h
  split at h
  · cases h
    exact ⟨rfl, rfl⟩
  · cases h

/-- At most one wait is pending. -/
def Single (t : Timer) : Prop := t.pending ≤ 1

theorem single_cancel (t : Timer) : t.cancel.Single := Nat.zero_le 1

theorem single_arm (t : Timer) : t.arm.Single := le_refl 1

theorem Single.expire (hs : t.Single) (h : t.expire = some t') : t'.Single := by
  obtain ⟨-, hpending, -⟩ := expire_spec h
  rw [Single, hpending]
  exact (Nat.sub_le ..).trans hs

theorem Single.takeExpired (hs : t.Single) (h : t.takeExpired = some t') : t'.Single :=
  (takeExpired_spec h).2.1.trans_le hs

theorem Single.takeAborted (hs : t.Single) (h : t.takeAborted = some t') : t'.Single :=
  (takeAborted_spec h).1.trans_le hs

end Timer

end MuonDetector.Library.Timers
