import Serf.Wire.Message

/-!
How long messages get. The sizes of a message are those of its parts and of the lengths
written before them; they grow with the parts as long as every length fits into its
prefix.
-/

namespace Serf.Wire

open Library.Encoding Library.Fields Library.LittleEndian QueryHandler

variable {Id Address : Type} (proto : Proto Id Address)

structure Sizes : Prop where
  u32 : ∀ low high : UInt32, low ≤ high → proto.u32.encodedLen low ≤ proto.u32.encodedLen high
  str : ∀ text, proto.str.encodedLen text = text.utf8ByteSize
  bytes : ∀ content, proto.bytes.encodedLen content = content.length

theorem reference_sizes : Sizes reference where
  u32 _ _ less := length_toVarint_mono 4 less
  str _ := rfl
  bytes _ := rfl

variable {proto}

theorem encodeMessageToBytes_length (message : Encodable) (bytes : Bytes)
    (encoded : encodeMessageToBytes proto message = .ok bytes) :
    bytes.length = encodedMessageLen proto message := by
  rw [encodeMessageToBytes] at encoded
  obtain ⟨written, wrote, rfl⟩ := map_ok encoded
  have bounded := (encodeMessage proto message _).bounded _ written wrote
  rw [List.length_append, List.length_replicate]
  omega

variable (sizes : Sizes proto)

include sizes

theorem Sizes.length_mono {low high : Nat} (less : low ≤ high) (small : high ≤ maxLen) :
    proto.u32.encodedLen (UInt32.ofNat low) ≤ proto.u32.encodedLen (UInt32.ofNat high) := by
  apply sizes.u32
  rw [UInt32.le_iff_toNat_le, toNat_length low (less.trans small), toNat_length high small]
  exact less

theorem Sizes.framedLen_mono {Value : Type} {codec : Data Value} {low high : Value}
    (less : codec.encodedLen low ≤ codec.encodedLen high) (small : codec.encodedLen high ≤ maxLen) :
    proto.framing.framedLen codec low ≤ proto.framing.framedLen codec high := by
  have front : proto.framing.u32.encodedLen _ ≤ proto.framing.u32.encodedLen _ :=
    sizes.length_mono less small
  rw [proto.framing.framedLen_eq, proto.framing.framedLen_eq]
  unfold delimitedLen
  split <;> omega

theorem Sizes.encodedMessageLen_mono {low high : Encodable}
    (less : low.encodedLen ≤ high.encodedLen) (small : high.encodedLen ≤ maxLen) :
    encodedMessageLen proto low ≤ encodedMessageLen proto high := by
  have front := sizes.length_mono less small
  unfold encodedMessageLen
  omega

theorem Sizes.encodedMessageLen_lt {low high : Encodable}
    (less : low.encodedLen < high.encodedLen) (small : high.encodedLen ≤ maxLen) :
    encodedMessageLen proto low < encodedMessageLen proto high := by
  have front := sizes.length_mono less.le small
  unfold encodedMessageLen
  omega

theorem Sizes.queryResponseLen_mono (message : QueryResponseMessage Id Address)
    {low high : Bytes} (less : low.length ≤ high.length)
    (small : queryResponseLen proto { message with payload := high } ≤ maxLen) :
    queryResponseLen proto { message with payload := low } ≤
      queryResponseLen proto { message with payload := high } := by
  simp only [queryResponseLen, List.sum_cons, List.sum_nil] at small ⊢
  cases high with
  | nil =>
    rw [List.length_eq_zero_iff.mp (Nat.le_zero.mp less)]
  | cons byte rest =>
    simp only [List.isEmpty_cons, Bool.not_false, if_true] at small ⊢
    have short : proto.bytes.encodedLen (byte :: rest) ≤ maxLen :=
      framed_small proto.framing (byte :: rest) (by omega)
    have longer : proto.bytes.encodedLen low ≤ proto.bytes.encodedLen (byte :: rest) := by
      rw [sizes.bytes, sizes.bytes]
      exact less
    have grown := sizes.framedLen_mono longer short
    split <;> omega

theorem Sizes.text_mono {low high : String} (less : low.utf8ByteSize ≤ high.utf8ByteSize)
    (small : (if !high.isEmpty then 1 + proto.framing.framedLen proto.str high else 0) ≤ maxLen) :
    (if !low.isEmpty then 1 + proto.framing.framedLen proto.str low else 0) ≤
      if !high.isEmpty then 1 + proto.framing.framedLen proto.str high else 0 := by
  cases absent : low.isEmpty with
  | true => exact Nat.zero_le _
  | false =>
    have present : high.isEmpty = false := by
      simp only [String.isEmpty, beq_eq_false_iff_ne] at absent ⊢
      omega
    rw [present] at small ⊢
    simp only [Bool.not_false, if_true] at small ⊢
    have short : proto.str.encodedLen high ≤ maxLen := framed_small proto.framing high (by omega)
    have longer : proto.str.encodedLen low ≤ proto.str.encodedLen high := by
      rw [sizes.str, sizes.str]
      exact less
    have grown := sizes.framedLen_mono longer short
    omega

theorem Sizes.keyResponseLen_mono (low high : KeyResponseMessage)
    (result : low.result = high.result) (primaryKey : low.primaryKey = high.primaryKey)
    (keys : low.keys.Sublist high.keys)
    (message : low.message.utf8ByteSize ≤ high.message.utf8ByteSize)
    (small : keyResponseLen proto high ≤ maxLen) :
    keyResponseLen proto low ≤ keyResponseLen proto high := by
  simp only [keyResponseLen, List.sum_cons, List.sum_nil] at small ⊢
  have listed := (keys.map fun key => 1 + proto.framing.framedLen proto.secretKey key).sum_le_sum
    fun _ _ => Nat.zero_le _
  have said := sizes.text_mono message (by omega)
  rw [result, primaryKey]
  omega

theorem Sizes.keyResponseLen_lt (low high : KeyResponseMessage) (key : SecretKey)
    (result : low.result = high.result) (primaryKey : low.primaryKey = high.primaryKey)
    (keys : high.keys = low.keys ++ [key])
    (message : low.message.utf8ByteSize ≤ high.message.utf8ByteSize)
    (small : keyResponseLen proto high ≤ maxLen) :
    keyResponseLen proto low < keyResponseLen proto high := by
  simp only [keyResponseLen, List.sum_cons, List.sum_nil] at small ⊢
  have said := sizes.text_mono message (by omega)
  rw [result, primaryKey, keys, List.map_append, List.sum_append, List.map_singleton,
    List.sum_singleton]
  omega

end Serf.Wire
