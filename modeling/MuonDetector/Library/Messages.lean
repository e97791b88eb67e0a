import Mathlib.Data.List.TakeWhile
import Mathlib.Logic.Equiv.List
import Mathlib.Tactic.DeriveCountable

/-!
# Values that travel as messages

A schema compiler makes a message type with fields of fixed widths, and a library writes
a message to bytes and reads it back. Whoever sends a value of another type builds a
message of it, and whoever receives the message makes a value of it again. The bytes are
the library's affair, so what becomes of a value is what becomes of it in the message.
-/

namespace MuonDetector.Library.Messages

/-! ## Fields -/

/-- A `float` as its bits. It is moved and never calculated with. -/
structure Binary32 where
  bits : UInt32 := 0
  deriving DecidableEq, Repr

/-- A `double` as its bits. -/
structure Binary64 where
  bits : UInt64 := 0
  deriving DecidableEq, Repr

instance countableUInt8 : Countable UInt8 :=
  Function.Injective.countable fun _ _ => UInt8.toNat_inj.mp
instance countableUInt16 : Countable UInt16 :=
  Function.Injective.countable fun _ _ => UInt16.toNat_inj.mp
instance countableUInt32 : Countable UInt32 :=
  Function.Injective.countable fun _ _ => UInt32.toNat_inj.mp
instance countableUInt64 : Countable UInt64 :=
  Function.Injective.countable fun _ _ => UInt64.toNat_inj.mp
instance countableInt8 : Countable Int8 :=
  Function.Injective.countable fun _ _ => Int8.toInt_inj.mp
instance countableInt16 : Countable Int16 :=
  Function.Injective.countable fun _ _ => Int16.toInt_inj.mp
instance countableInt32 : Countable Int32 :=
  Function.Injective.countable fun _ _ => Int32.toInt_inj.mp
instance countableInt64 : Countable Int64 :=
  Function.Injective.countable fun _ _ => Int64.toInt_inj.mp

deriving instance Countable for Binary32, Binary64

/-- The bytes of a string up to its first zero byte. -/
def cStr (text : List UInt8) : List UInt8 := text.takeWhile (· ≠ 0)

theorem cStr_eq_self {text : List UInt8} : cStr text = text ↔ 0 ∉ text := by
  rw [cStr, List.takeWhile_eq_self_iff]
  constructor
  · intro h hmem
    exact of_decide_eq_true (h 0 hmem) rfl
  · intro h b hmem
    apply decide_eq_true
    rintro rfl
    exact h hmem

/-- A list is unchanged when each element is. -/
theorem map_eq_self_iff {α : Type} {f : α → α} {xs : List α} :
    xs.map f = xs ↔ ∀ x ∈ xs, f x = x := by
  induction xs with
  | nil => simp
  | cons x xs ih => rw [List.map_cons, List.cons.injEq, ih, List.forall_mem_cons]

/-! ## The library -/

/-- A type that the schema compiler has made. -/
class Message (S : Type) : Prop extends Countable S

/-- The size of a word, in bytes. -/
def wordSize : Nat := 8

/-- The serialization library: a message is written as a number of words and read as it
was written. Bytes that are no message of the type may be refused. -/
structure Serializer where
  write : {S : Type} → [Message S] → S → List UInt8
  read : {S : Type} → [Message S] → List UInt8 → Option S
  sizeInWords : {S : Type} → [Message S] → S → Nat
  read_write : ∀ {S : Type} [Message S] (s : S), read (write s) = some s
  write_length : ∀ {S : Type} [Message S] (s : S), (write s).length = wordSize * sizeInWords s

/-- Any numbering of the messages of each type gives a library, which writes a message in as
many words as its number. -/
theorem Serializer.exists_of_numbers (number : (S : Type) → [Message S] → S → Nat)
    (hinjective : ∀ (S : Type) [Message S], Function.Injective (number S)) :
    ∃ lib : Serializer, ∀ {S : Type} [Message S] (s : S), lib.sizeInWords s = number S s := by
  have hwrite : ∀ (S : Type) [Message S],
      Function.Injective fun s : S => List.replicate (wordSize * number S s) (0 : UInt8) := by
    intro S _ s t heq
    have hlength := congrArg List.length heq
    rw [List.length_replicate, List.length_replicate] at hlength
    exact hinjective S (Nat.eq_of_mul_eq_mul_left (by decide) hlength)
  exact ⟨{
    write := fun {S} _ s => List.replicate (wordSize * number S s) 0
    read := fun {S} _ => Function.partialInv _
    sizeInWords := fun {S} _ => number S
    read_write := fun {S} _ => Function.partialInv_left (hwrite S)
    write_length := fun _ => List.length_replicate }, fun _ => rfl⟩

/-- Messages have as many values as there are bytes to write them, so there is such a
library. -/
theorem Serializer.nonempty : Nonempty Serializer := by
  have hnumber : ∀ (S : Type) [Message S], ∃ number : S → Nat, Function.Injective number := by
    intro S _
    exact exists_injective_nat S
  choose number hinjective using hnumber
  obtain ⟨lib, -⟩ := Serializer.exists_of_numbers number hinjective
  exact ⟨lib⟩

/-- The builder and the reader that go with a value type. -/
structure Codec (T : Type) where
  Root : Type
  message : Message Root := by infer_instance
  toRoot : T → Root
  ofRoot : Root → Option T

namespace Codec

variable {T : Type} (c : Codec T)

def encode (lib : Serializer) (value : T) : List UInt8 :=
  have := c.message
  lib.write (c.toRoot value)

def decode (lib : Serializer) (bytes : List UInt8) : Option T :=
  have := c.message
  (lib.read bytes).bind c.ofRoot

/-- The words that the library takes for the message of a value. -/
def sizeInWords (lib : Serializer) (value : T) : Nat :=
  have := c.message
  lib.sizeInWords (c.toRoot value)

/-- What is decoded is what the reader makes of the message that the builder has made. -/
@[simp] theorem decode_encode (lib : Serializer) (value : T) :
    c.decode lib (c.encode lib value) = c.ofRoot (c.toRoot value) := by
  have := c.message
  rw [decode, encode, lib.read_write, Option.bind_some]

theorem encode_length (lib : Serializer) (value : T) :
    (c.encode lib value).length = wordSize * c.sizeInWords lib value := by
  have := c.message
  exact lib.write_length _

/-- A value that is encoded and decoded comes back as it was. -/
def RoundTrips (lib : Serializer) (value : T) : Prop :=
  c.decode lib (c.encode lib value) = some value

/-- Whether it does is not up to the library. -/
theorem roundTrips_iff {lib : Serializer} {value : T} :
    c.RoundTrips lib value ↔ c.ofRoot (c.toRoot value) = some value := by
  rw [RoundTrips, decode_encode]

end Codec

end MuonDetector.Library.Messages
