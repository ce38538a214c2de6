import Mathlib.Algebra.Ring.Nat
import Mathlib.Data.List.Basic

/-!
Codecs of values that are written into a slice and read back from one. A slice
to write into is its length, `room`: a codec either reports an error or fills a
part of it. Decoding reads a borrowed form first and converts it later; a
borrowed form stands here for what its conversion yields, so decoding answers
the number of bytes read and the outcome of the conversion.
-/

namespace Serf.Library.Encoding

abbrev Bytes := List UInt8

inductive WireType where
  | byte
  | varint
  | lengthDelimited
  | fixed32
  | fixed64
  deriving DecidableEq

/-- Why an encoder wrote nothing; with `outOfBounds` it did not report an error
but indexed its slice out of bounds. -/
inductive EncodeError where
  | insufficientBuffer (required remaining : Nat)
  | tooLarge
  | custom (message : String)
  | outOfBounds
  deriving DecidableEq

def EncodeError.Insufficient (reason : EncodeError) : Prop :=
  ∃ required remaining, reason = .insufficientBuffer required remaining

structure Codec (Error Value : Type) where
  wireType : WireType
  encodedLen : Value → Nat
  encode : Value → (room : Nat) → Except EncodeError Bytes
  decode : Bytes → Except Error (Nat × Except Error Value)
  /-- A slice cannot be overrun. -/
  bounded : ∀ value room bytes, encode value room = .ok bytes → bytes.length ≤ room

variable {Error Value : Type}

/-- Decoding followed by the conversion. -/
def Codec.decodeOwned (codec : Codec Error Value) (bytes : Bytes) : Except Error (Nat × Value) :=
  match codec.decode bytes with
  | .error reason => .error reason
  | .ok (_, .error reason) => .error reason
  | .ok (read, .ok value) => .ok (read, value)

def Codec.encodeToBytes (codec : Codec Error Value) (value : Value) : Except EncodeError Bytes :=
  let len := codec.encodedLen value
  (codec.encode value len).map fun written => written ++ List.replicate (len - written.length) 0

/-- The largest encoded length, `u32::MAX`. -/
def maxLen : Nat := 2 ^ 32 - 1

/-- The codec writes exactly the announced number of bytes into any slice that
has room for them, and reads back what it wrote. -/
structure RoundTrips (codec : Codec Error Value) : Prop where
  exact : ∀ value room bytes, codec.encode value room = .ok bytes →
    bytes.length = codec.encodedLen value
  writes : ∀ value room, codec.encodedLen value ≤ room → codec.encodedLen value ≤ maxLen →
    ∃ bytes, codec.encode value room = .ok bytes
  reads : ∀ value room bytes, codec.encode value room = .ok bytes →
    codec.decode bytes = .ok (bytes.length, .ok value)

variable {codec : Codec Error Value}

theorem RoundTrips.refuses (laws : RoundTrips codec) (value : Value) (room : Nat)
    (short : room < codec.encodedLen value) (bytes : Bytes) :
    codec.encode value room ≠ .ok bytes := by
  intro written
  have length := laws.exact value room bytes written
  have bound := codec.bounded value room bytes written
  omega

theorem RoundTrips.readsOwned (laws : RoundTrips codec) (value : Value) (room : Nat)
    (bytes : Bytes) (written : codec.encode value room = .ok bytes) :
    codec.decodeOwned bytes = .ok (bytes.length, value) := by
  rw [Codec.decodeOwned, laws.reads value room bytes written]

end Serf.Library.Encoding
