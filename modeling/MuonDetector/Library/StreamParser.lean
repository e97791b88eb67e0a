import Mathlib.Data.List.Basic

/-!
# Front parsers on an incoming stream

A front parser looks at the bytes at the front of a buffer and asks for more,
rejects them for good, or accepts one frame of them. Its answers are stable
under further input and an accepted frame is decided by its own bytes alone.
These four laws are fields of the structure, so that no parser without them can
be built. From them follow: draining a buffer chunk by chunk gives what draining
the whole stream gives, and what is delivered is the longest sequence of frames
at the front of the stream.
-/

namespace MuonDetector.Library.StreamParser

variable {α β : Type*}

/-- What one look at the front of a buffer decides. -/
inductive Verdict (β : Type*) where
  | more
  | reject
  | accept (value : β) (size : Nat)

structure FrontParser (α β : Type*) where
  look : List α → Verdict β
  accept_pos : ∀ {b v n}, look b = .accept v n → 0 < n
  accept_le : ∀ {b v n}, look b = .accept v n → n ≤ b.length
  accept_front : ∀ {b c v n}, look b = .accept v n → look (b.take n ++ c) = .accept v n
  reject_append : ∀ {b c}, look b = .reject → look (b ++ c) = .reject

namespace FrontParser

variable (p : FrontParser α β)

theorem accept_append {b c : List α} {v : β} {n : Nat} (h : p.look b = .accept v n) :
    p.look (b ++ c) = .accept v n := by
  have hf := p.accept_front (c := b.drop n ++ c) h
  rwa [← List.append_assoc, List.take_append_drop] at hf

/-- A list of symbols that is exactly one frame carrying `v`. -/
def Frame (v : β) (f : List α) : Prop := p.look f = .accept v f.length

theorem frame_of_accept {b : List α} {v : β} {n : Nat} (h : p.look b = .accept v n) :
    p.Frame v (b.take n) := by
  have hf := p.accept_front (c := []) h
  rw [List.append_nil] at hf
  rw [Frame, hf, List.length_take, Nat.min_eq_left (p.accept_le h)]

end FrontParser

/-- What has become of a stream: the delivered values, the bytes not yet used
and whether the parser gave the stream up. -/
structure Outcome (α β : Type*) where
  delivered : List β
  rest : List α
  closed : Bool

namespace Outcome

def fresh : Outcome α β := ⟨[], [], false⟩

/-- The same outcome after earlier deliveries. -/
def after (vs : List β) (o : Outcome α β) : Outcome α β := { o with delivered := vs ++ o.delivered }

@[simp] theorem after_delivered (vs : List β) (o : Outcome α β) :
    (o.after vs).delivered = vs ++ o.delivered := rfl
@[simp] theorem after_rest (vs : List β) (o : Outcome α β) : (o.after vs).rest = o.rest := rfl
@[simp] theorem after_closed (vs : List β) (o : Outcome α β) : (o.after vs).closed = o.closed := rfl

theorem after_after (us vs : List β) (o : Outcome α β) :
    (o.after vs).after us = o.after (us ++ vs) := by
  simp [after]

end Outcome

variable (p : FrontParser α β)

/-- Take frames off the front until the parser asks for more or rejects. -/
def drain (b : List α) : Outcome α β :=
  match _h : p.look b with
  | .more => ⟨[], b, false⟩
  | .reject => ⟨[], b, true⟩
  | .accept v n => (drain (b.drop n)).after [v]
termination_by b.length
decreasing_by
  have hpos := p.accept_pos _h
  have hle := p.accept_le _h
  rw [List.length_drop]
  omega

theorem drain_more {b : List α} (h : p.look b = .more) : drain p b = ⟨[], b, false⟩ := by
  rw [drain]
  split <;> simp_all

theorem drain_reject {b : List α} (h : p.look b = .reject) : drain p b = ⟨[], b, true⟩ := by
  rw [drain]
  split <;> simp_all

theorem drain_accept {b : List α} {v : β} {n : Nat} (h : p.look b = .accept v n) :
    drain p b = (drain p (b.drop n)).after [v] := by
  rw [drain]
  split <;> simp_all

/-- Induction over the frames that draining a buffer takes off. -/
theorem drain_induction {P : List α → Prop}
    (more : ∀ b, p.look b = .more → P b) (reject : ∀ b, p.look b = .reject → P b)
    (accept : ∀ b v n, p.look b = .accept v n → P (b.drop n) → P b) (b : List α) : P b := by
  induction hb : b.length using Nat.strongRecOn generalizing b with
  | ind k ih =>
    cases h : p.look b with
    | more => exact more b h
    | reject => exact reject b h
    | accept v n =>
      have hpos := p.accept_pos h
      have hle := p.accept_le h
      refine accept b v n h (ih (b.drop n).length ?_ _ rfl)
      rw [List.length_drop]
      omega

theorem look_rest (b : List α) :
    p.look (drain p b).rest = if (drain p b).closed then .reject else .more := by
  induction b using drain_induction p with
  | more b h => simp [drain_more p h, h]
  | reject b h => simp [drain_reject p h, h]
  | accept b v n h ih => rw [drain_accept p h]; exact ih

/-- The drained buffer is the delivered frames followed by the unused bytes. -/
theorem drain_decomposes (b : List α) :
    ∃ fs, List.Forall₂ p.Frame (drain p b).delivered fs ∧ b = fs.flatten ++ (drain p b).rest := by
  induction b using drain_induction p with
  | more b h => exact ⟨[], by simp [drain_more p h]⟩
  | reject b h => exact ⟨[], by simp [drain_reject p h]⟩
  | accept b v n h ih =>
    obtain ⟨fs, hfs, hb⟩ := ih
    refine ⟨b.take n :: fs, ?_, ?_⟩
    · rw [drain_accept p h]
      exact .cons (p.frame_of_accept h) hfs
    · rw [drain_accept p h, Outcome.after_rest, List.flatten_cons, List.append_assoc, ← hb,
        List.take_append_drop]

/-- Frames at the front of a buffer are what draining it delivers first. -/
theorem drain_frames {vs : List β} {fs : List (List α)} (hfs : List.Forall₂ p.Frame vs fs)
    (t : List α) : drain p (fs.flatten ++ t) = (drain p t).after vs := by
  induction hfs with
  | nil => rfl
  | @cons v f vs fs hf _ ih =>
    have hlook : p.look (f ++ (fs.flatten ++ t)) = .accept v f.length := p.accept_append hf
    rw [List.flatten_cons, List.append_assoc, drain_accept p hlook, List.drop_left, ih,
      Outcome.after_after]
    rfl

/-- No longer sequence of frames is at the front of the stream. -/
theorem drain_longest {b : List α} {vs : List β} {fs : List (List α)}
    (hfs : List.Forall₂ p.Frame vs fs) (hb : fs.flatten <+: b) :
    vs <+: (drain p b).delivered := by
  obtain ⟨t, rfl⟩ := hb
  rw [drain_frames p hfs t]
  exact List.prefix_append _ _

/-- Bytes that arrive after a buffer was drained join its unused bytes. -/
theorem drain_append (b c : List α) :
    drain p (b ++ c) =
      if (drain p b).closed then
        ⟨(drain p b).delivered, (drain p b).rest ++ c, true⟩
      else (drain p ((drain p b).rest ++ c)).after (drain p b).delivered := by
  induction b using drain_induction p with
  | more b h => simp [drain_more p h, Outcome.after]
  | reject b h => simp [drain_reject p h, drain_reject p (p.reject_append h)]
  | accept b v n h ih =>
    rw [drain_accept p (p.accept_append (c := c) h), drain_accept p h,
      List.drop_append_of_le_length (p.accept_le h), ih]
    split <;> simp_all [Outcome.after]

/-- Draining more of a stream delivers what is delivered so far first, and a stream that
was not given up was not given up before. -/
theorem drain_mono {b c : List α} (h : b <+: c) :
    (drain p b).delivered <+: (drain p c).delivered ∧
      ((drain p c).closed = false → (drain p b).closed = false) := by
  obtain ⟨t, rfl⟩ := h
  rw [drain_append]
  split
  · exact ⟨List.prefix_rfl, fun h => by simp at h⟩
  · rename_i hopen
    exact ⟨List.prefix_append _ _, fun _ => by simpa using hopen⟩

/-- One chunk of input: nothing is read once the stream is given up. -/
def feed (o : Outcome α β) (c : List α) : Outcome α β :=
  if o.closed then o else (drain p (o.rest ++ c)).after o.delivered

/-- The parts of an outcome that later input can depend on. -/
def Agree (o o' : Outcome α β) : Prop :=
  o.delivered = o'.delivered ∧ o.closed = o'.closed ∧ (o.closed = false → o.rest = o'.rest)

theorem feed_agree {o : Outcome α β} {b : List α} (h : Agree o (drain p b)) (c : List α) :
    Agree (feed p o c) (drain p (b ++ c)) := by
  obtain ⟨hd, hc, hr⟩ := h
  rw [drain_append p b c, ← hc, feed]
  cases hcl : o.closed with
  | true => exact ⟨hd, hcl, by simp [hcl]⟩
  | false =>
    rw [← hr hcl, ← hd]
    exact ⟨rfl, rfl, fun _ => rfl⟩

/-- **However the stream is cut into chunks, the outcome is that of the stream.** -/
theorem feed_chunks (cs : List (List α)) :
    Agree (cs.foldl (feed p) (drain p [])) (drain p cs.flatten) := by
  suffices h : ∀ (o : Outcome α β) (b : List α), Agree o (drain p b) →
      Agree (cs.foldl (feed p) o) (drain p (b ++ cs.flatten)) by
    simpa using h (drain p []) [] ⟨rfl, rfl, fun _ => rfl⟩
  induction cs with
  | nil =>
    intro o b h
    simpa using h
  | cons c cs ih =>
    intro o b h
    have hstep := ih (feed p o c) (b ++ c) (feed_agree p h c)
    simpa [List.append_assoc] using hstep

end MuonDetector.Library.StreamParser
