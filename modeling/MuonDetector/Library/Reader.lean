import MuonDetector.Library.Texts

/-!
# Readers of a buffer that may run past its end

A reader takes a buffer and gives a value, or nothing when it has read past the end
and the rest of its behaviour is undefined. Beside the value it keeps a trace: the
indices it read and the loop bounds it computed. `InRange` says that a reader stays
inside its buffer, and has one rule for each way of putting readers together.
-/

namespace MuonDetector.Library

structure Trace where
  reads : List Nat
  bounds : List Nat
  deriving DecidableEq, Repr

def Trace.empty : Trace := ⟨[], []⟩

def Trace.append (t u : Trace) : Trace := ⟨t.reads ++ u.reads, t.bounds ++ u.bounds⟩

theorem Trace.append_empty (t : Trace) : t.append Trace.empty = t := by
  simp [Trace.append, Trace.empty]

def Reader (β α : Type) : Type := List β → Option α × Trace

namespace Reader

variable {β α γ : Type}

instance : Monad (Reader β) where
  pure a := fun _ => (some a, Trace.empty)
  bind r f := fun buf =>
    match r buf with
    | (none, t) => (none, t)
    | (some a, t) => ((f a buf).1, t.append (f a buf).2)

/-- Read through an iterator. At the end of the buffer there is nothing to read. -/
def deref (i : Nat) : Reader β β := fun buf => (buf[i]?, ⟨[i], []⟩)

/-- Read by subscript, which answers `nul` just past the end. -/
def index (nul : β) (i : Nat) : Reader β β := fun buf =>
  (if i = buf.length then some nul else buf[i]?, ⟨[i], []⟩)

def size : Reader β Nat := fun buf => (some buf.length, Trace.empty)

/-- Run a loop up to `n`. -/
def bound (n : Nat) : Reader β Unit := fun _ => (some (), ⟨[], [n]⟩)

/-- The readers `f i`, `f (i + 1)` and so on, `n` of them. -/
def timesFrom (f : Nat → Reader β α) (i : Nat) : Nat → Reader β (List α)
  | 0 => pure []
  | n + 1 => do
    let a ← f i
    let as ← timesFrom f (i + 1) n
    pure (a :: as)

def times (n : Nat) (f : Nat → Reader β α) : Reader β (List α) := timesFrom f 0 n

/-- The `n` elements from `i` on. -/
def slice (i n : Nat) : Reader β (List β) := times n fun k => deref (i + k)

/-- The first place of `c` at or after `i`. -/
def find [DecidableEq β] (c : β) (i : Nat) : Reader β (Option Nat) := fun buf =>
  match (buf.drop i).findIdx? (· = c) with
  | some k => (some (some (i + k)), ⟨List.range' i (k + 1), []⟩)
  | none => (some none, ⟨List.range' i (buf.length - i), []⟩)

/-- At most `n` elements from `i` on, for an `i` that is not past the end. -/
def substr (i n : Nat) : Reader β (List β) := fun buf =>
  if i ≤ buf.length then
    (some ((buf.drop i).take n), ⟨List.range' i (min n (buf.length - i)), []⟩)
  else (none, Trace.empty)

/-! ## Values -/

/-- On this buffer the reader gives `a`. -/
def Gives (buf : List β) (r : Reader β α) (a : α) : Prop := (r buf).1 = some a

theorem bind_some {r : Reader β α} {f : α → Reader β γ} {buf : List β} {a : α} {t : Trace}
    (h : r buf = (some a, t)) : (r >>= f) buf = ((f a buf).1, t.append (f a buf).2) := by
  show (match r buf with
    | (none, t) => (none, t)
    | (some a, t) => ((f a buf).1, t.append (f a buf).2)) = _
  rw [h]

theorem bind_none {r : Reader β α} {f : α → Reader β γ} {buf : List β} {t : Trace}
    (h : r buf = (none, t)) : (r >>= f) buf = (none, t) := by
  show (match r buf with
    | (none, t) => (none, t)
    | (some a, t) => ((f a buf).1, t.append (f a buf).2)) = _
  rw [h]

theorem Gives.pure (buf : List β) (a : α) : Gives buf (Pure.pure a) a := rfl

theorem Gives.bind {buf : List β} {r : Reader β α} {f : α → Reader β γ} {a : α} {c : γ}
    (hr : Gives buf r a) (hf : Gives buf (f a) c) : Gives buf (r >>= f) c := by
  have hpair : r buf = (some a, (r buf).2) := Prod.ext hr rfl
  rw [Gives, bind_some hpair]
  exact hf

/-- What a composed reader gives comes from what its first part gives. -/
theorem Gives.of_bind {buf : List β} {r : Reader β α} {f : α → Reader β γ} {c : γ}
    (h : Gives buf (r >>= f) c) : ∃ a, Gives buf r a ∧ Gives buf (f a) c := by
  rcases hr : r buf with ⟨_ | a, t⟩
  · rw [Gives, bind_none hr] at h
    cases h
  · refine ⟨a, congrArg Prod.fst hr, ?_⟩
    rw [Gives, bind_some hr] at h
    exact h

theorem Gives.deref {buf : List β} {i : Nat} {b : β} (h : buf[i]? = some b) :
    Gives buf (deref i) b := h

theorem Gives.size (buf : List β) : Gives buf size buf.length := rfl

theorem Gives.bound (buf : List β) (n : Nat) : Gives buf (bound n) () := rfl

theorem Gives.timesFrom {buf : List β} {f : Nat → Reader β α} (as : List α) (i : Nat)
    (h : ∀ k (hk : k < as.length), Gives buf (f (i + k)) as[k]) :
    Gives buf (timesFrom f i as.length) as := by
  induction as generalizing i with
  | nil => exact Gives.pure buf []
  | cons a as ih =>
    have hrest := ih (i + 1) fun k hk => by
      have hnext := h (k + 1) (Nat.succ_lt_succ hk)
      rwa [Nat.add_right_comm]
    exact (h 0 (Nat.succ_pos _)).bind (hrest.bind (Gives.pure buf (a :: as)))

/-- A loop gives the list of what its turns give. -/
theorem Gives.times {buf : List β} {f : Nat → Reader β α} {as : List α}
    (h : ∀ k (hk : k < as.length), Gives buf (f k) as[k]) : Gives buf (times as.length f) as :=
  Gives.timesFrom as 0 fun k hk => by
    rw [Nat.zero_add]
    exact h k hk

theorem Gives.slice {buf : List β} {i n : Nat} (h : i + n ≤ buf.length) :
    Gives buf (slice i n) ((buf.drop i).take n) := by
  suffices hfrom : ∀ n j, i + j + n ≤ buf.length →
      Gives buf (Reader.timesFrom (fun k => Reader.deref (i + k)) j n)
        ((buf.drop (i + j)).take n) by
    exact hfrom n 0 h
  intro n
  induction n with
  | zero => exact fun j _ => Gives.pure buf []
  | succ n ih =>
    intro j hj
    have hlt : i + j < buf.length := by omega
    rw [List.drop_eq_getElem_cons hlt, List.take_succ_cons]
    exact (Gives.deref (List.getElem?_eq_getElem hlt)).bind
      ((ih (j + 1) (by omega)).bind (Gives.pure buf _))

/-! ## Staying inside the buffer -/

/-- The reader is defined, every index it reads and every bound it computes is inside. -/
structure InRange (buf : List β) (r : Reader β α) : Prop where
  defined : (r buf).1.isSome
  reads : ∀ i ∈ (r buf).2.reads, i < buf.length
  bounds : ∀ n ∈ (r buf).2.bounds, n ≤ buf.length

theorem InRange.pure (buf : List β) (a : α) : InRange buf (Pure.pure a) where
  defined := rfl
  reads _ h := absurd h List.not_mem_nil
  bounds _ h := absurd h List.not_mem_nil

theorem InRange.of_apply_eq {buf : List β} {r r' : Reader β α} (h : r buf = r' buf)
    (hr : InRange buf r') : InRange buf r := by
  constructor <;> rw [h]
  · exact hr.defined
  · exact hr.reads
  · exact hr.bounds

theorem InRange.bind_gives {buf : List β} {r : Reader β α} {f : α → Reader β γ}
    (hr : InRange buf r) (hf : ∀ a, Gives buf r a → InRange buf (f a)) :
    InRange buf (r >>= f) := by
  obtain ⟨a, ha⟩ := Option.isSome_iff_exists.mp hr.defined
  have hpair : r buf = (some a, (r buf).2) := Prod.ext ha rfl
  have hfa := hf a ha
  constructor <;> rw [bind_some hpair]
  · exact hfa.defined
  · intro i hi
    rcases List.mem_append.mp hi with h | h
    · exact hr.reads i h
    · exact hfa.reads i h
  · intro n hn
    rcases List.mem_append.mp hn with h | h
    · exact hr.bounds n h
    · exact hfa.bounds n h

theorem InRange.bind {buf : List β} {r : Reader β α} {f : α → Reader β γ} (hr : InRange buf r)
    (hf : ∀ a, InRange buf (f a)) : InRange buf (r >>= f) :=
  hr.bind_gives fun a _ => hf a

theorem InRange.deref {buf : List β} {i : Nat} (h : i < buf.length) : InRange buf (deref i) where
  defined := by simp [Reader.deref, h]
  reads j hj := by
    obtain rfl := List.mem_singleton.mp hj
    exact h
  bounds _ h := absurd h List.not_mem_nil

theorem InRange.index {buf : List β} {i : Nat} (nul : β) (h : i < buf.length) :
    InRange buf (index nul i) where
  defined := by simp [Reader.index, h, Nat.ne_of_lt h]
  reads j hj := by
    obtain rfl := List.mem_singleton.mp hj
    exact h
  bounds _ h := absurd h List.not_mem_nil

theorem InRange.size (buf : List β) : InRange buf size where
  defined := rfl
  reads _ h := absurd h List.not_mem_nil
  bounds _ h := absurd h List.not_mem_nil

theorem InRange.bound {buf : List β} {n : Nat} (h : n ≤ buf.length) : InRange buf (bound n) where
  defined := rfl
  reads _ h := absurd h List.not_mem_nil
  bounds m hm := by
    obtain rfl := List.mem_singleton.mp hm
    exact h

theorem InRange.timesFrom {buf : List β} {f : Nat → Reader β α} (n i : Nat)
    (h : ∀ k, i ≤ k → k < i + n → InRange buf (f k)) : InRange buf (timesFrom f i n) := by
  induction n generalizing i with
  | zero => exact InRange.pure buf []
  | succ n ih =>
    have hrest := ih (i + 1) fun k hk hkn => h k (by omega) (by omega)
    exact (h i (Nat.le_refl i) (by omega)).bind fun a => hrest.bind fun as => InRange.pure buf _

theorem InRange.times {buf : List β} {f : Nat → Reader β α} {n : Nat}
    (h : ∀ k, k < n → InRange buf (f k)) : InRange buf (times n f) :=
  InRange.timesFrom n 0 fun k _ hk => h k (by omega)

theorem InRange.slice {buf : List β} {i n : Nat} (h : i + n ≤ buf.length) :
    InRange buf (slice i n) :=
  InRange.times fun k hk => InRange.deref (by omega)

/-! ## What a composed reader reads -/

theorem reads_bind_left {buf : List β} {r : Reader β α} (f : α → Reader β γ) {i : Nat}
    (h : i ∈ (r buf).2.reads) : i ∈ ((r >>= f) buf).2.reads := by
  rcases hr : r buf with ⟨_ | a, t⟩
  · rw [hr] at h
    rw [bind_none hr]
    exact h
  · rw [hr] at h
    rw [bind_some hr]
    exact List.mem_append_left _ h

theorem reads_bind_right {buf : List β} {r : Reader β α} {f : α → Reader β γ} {a : α} {i : Nat}
    (hr : Gives buf r a) (h : i ∈ (f a buf).2.reads) : i ∈ ((r >>= f) buf).2.reads := by
  have hpair : r buf = (some a, (r buf).2) := Prod.ext hr rfl
  rw [bind_some hpair]
  exact List.mem_append_right _ h

/-! ## Searches -/

/-- A search finds the first place behind a stretch without the element. -/
theorem Gives.find_some [DecidableEq β] {c : β} (before : List β) {mid : List β}
    (after : List β) (h : c ∉ mid) :
    Gives (before ++ (mid ++ c :: after)) (find c before.length)
      (some (before.length + mid.length)) := by
  unfold Gives Reader.find
  rw [List.drop_left, Texts.findIdx?_separator h]

theorem Gives.find_none [DecidableEq β] {c : β} (before : List β) {mid : List β} (h : c ∉ mid) :
    Gives (before ++ mid) (find c before.length) none := by
  unfold Gives Reader.find
  rw [List.drop_left, Texts.findIdx?_absent.mpr h]

theorem Gives.substr (before after : List β) (n : Nat) :
    Gives (before ++ after) (substr before.length n) (after.take n) := by
  have hle : before.length ≤ (before ++ after).length := by
    rw [List.length_append]
    omega
  unfold Gives Reader.substr
  rw [if_pos hle, List.drop_left]

theorem find_bounds [DecidableEq β] {buf : List β} {c : β} {i j : Nat}
    (h : Gives buf (find c i) (some j)) : i ≤ j ∧ j < buf.length := by
  unfold Gives find at h
  cases hf : (buf.drop i).findIdx? (· = c) with
  | none =>
    rw [hf] at h
    cases h
  | some k =>
    rw [hf] at h
    obtain rfl := Option.some.inj (Option.some.inj h)
    obtain ⟨hk, -⟩ := List.findIdx?_eq_some_iff_getElem.mp hf
    rw [List.length_drop] at hk
    omega

theorem InRange.find [DecidableEq β] (buf : List β) (c : β) (i : Nat) :
    InRange buf (find c i) := by
  unfold Reader.find
  cases hf : (buf.drop i).findIdx? (· = c) with
  | none =>
    refine ⟨by rw [hf]; rfl, ?_, ?_⟩
    · rw [hf]
      intro j hj
      have hmem := List.mem_range'_1.mp hj
      omega
    · rw [hf]
      exact fun _ h => absurd h List.not_mem_nil
  | some k =>
    obtain ⟨hk, -⟩ := List.findIdx?_eq_some_iff_getElem.mp hf
    rw [List.length_drop] at hk
    refine ⟨by rw [hf]; rfl, ?_, ?_⟩
    · rw [hf]
      intro j hj
      have hmem := List.mem_range'_1.mp hj
      omega
    · rw [hf]
      exact fun _ h => absurd h List.not_mem_nil

theorem InRange.substr {buf : List β} {i : Nat} (n : Nat) (h : i ≤ buf.length) :
    InRange buf (substr i n) := by
  unfold Reader.substr
  refine ⟨by rw [if_pos h]; rfl, ?_, ?_⟩
  · rw [if_pos h]
    intro j hj
    have hmem := List.mem_range'_1.mp hj
    omega
  · rw [if_pos h]
    exact fun _ h => absurd h List.not_mem_nil

end Reader

end MuonDetector.Library
