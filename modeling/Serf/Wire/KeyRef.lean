import Serf.Wire.Message

/-!
Responses to key queries as `stream_key_response` borrows them. The decoder finds the
range in which the keys stand and leaves them there; they are decoded one by one when
the borrowed message is gone through. Every other message is of interest for its type
alone, and is what `decode_message` makes of it.
-/

namespace Serf.Wire

open Library.Encoding Library.Fields QueryHandler

variable {Id Address : Type} (proto : Proto Id Address)

section Response

structure KeyResponseMessageRef where
  result : Bool
  message : String
  buffer : Bytes
  keysOffsets : Option (Nat × Nat)
  primaryKey : Option SecretKey

def keyResponseRefDecode (buffer : Bytes) : Outcome (Nat × KeyResponseMessageRef) := do
  let (offset, fields) ← scan (keyResponseArms proto) {} buffer
  return (offset,
    { result := fields.result.getD false, message := fields.message.getD ""
      buffer, keysOffsets := fields.keys, primaryKey := fields.primaryKey })

/-- `keys().iter()`, up to the first key that fails. -/
def KeyResponseMessageRef.iterKeys (message : KeyResponseMessageRef) :
    Outcome (List (Except DecodeError SecretKey)) :=
  proto.repeating.iterated (merge .lengthDelimited 3) (proto.readOwned proto.secretKey)
    message.buffer message.keysOffsets

def convertKeyResponse (message : KeyResponseMessageRef) : Outcome KeyResponseMessage := do
  let keys ← proto.collect proto.secretKey .lengthDelimited 3 message.buffer message.keysOffsets
  return {
    result := message.result, message := message.message, keys, primaryKey := message.primaryKey }

/-- `decode_length_delimited` of a response. -/
def readKeyResponseRef : Read DecodeError KeyResponseMessageRef :=
  proto.framing.decodeFramed .lengthDelimited (keyResponseRefDecode proto)

theorem keyResponseDecode_eq :
    keyResponseDecode proto = mapRead (convertKeyResponse proto) (keyResponseRefDecode proto) := by
  funext buffer
  rw [keyResponseDecode, mapRead, keyResponseRefDecode]
  cases scan (keyResponseArms proto) {} buffer with
  | error fault => rfl
  | ok result => rfl

theorem readKeyResponse_eq :
    proto.framing.decodeFramed .lengthDelimited (keyResponseDecode proto) =
      mapRead (convertKeyResponse proto) (readKeyResponseRef proto) := by
  rw [readKeyResponseRef, ← proto.framing.decodeFramed_mapRead, ← keyResponseDecode_eq]

end Response

section Reply

variable [DecidableEq Id]

inductive KeyReply (Id Address : Type) where
  | keyResponse (message : KeyResponseMessageRef)
  | other (message : MessageRef Id Address)

def KeyReply.converted : KeyReply Id Address → MessageRef Id Address
  | .keyResponse message => .keyResponse (convertKeyResponse proto message)
  | .other message => message

def KeyReply.slot : Slot (Option (KeyReply Id Address)) (KeyReply Id Address) :=
  { held := fun msg => msg, put := fun _ value => value }

def keyReplyArms (byte : UInt8) : Arm DecodeError (Option (KeyReply Id Address)) :=
  if byte = merge .lengthDelimited 10 then
    once KeyReply.slot (.duplicateField "Message" "value" 10)
      (mapRead .keyResponse (readKeyResponseRef proto))
  else fun offset held bytes =>
    (messageArms proto byte offset (held.map (KeyReply.converted proto)) bytes).map
      fun (msg, taken) => (held <|> msg.map .other, taken)

def decodeKeyReply (buffer : Bytes) : Outcome (KeyReply Id Address) := do
  let (_, msg) ← scan (keyReplyArms proto) none buffer
  need "Message" "value" msg

theorem messageArms_keyResponse :
    messageArms proto (merge .lengthDelimited 10) =
      messageArm proto 10 (keyResponseDecode proto) .keyResponse := rfl

theorem keyReplyArms_alike (tag : UInt8) (offset : Nat) (held : Option (KeyReply Id Address))
    (bytes : Bytes) :
    messageArms proto tag offset (held.map (KeyReply.converted proto)) bytes =
      (keyReplyArms proto tag offset held bytes).map fun (next, taken) =>
        (next.map (KeyReply.converted proto), taken) := by
  unfold keyReplyArms
  by_cases own : tag = merge .lengthDelimited 10
  · rw [if_pos own, own, messageArms_keyResponse, messageArm, readKeyResponse_eq]
    cases held with
    | some other => rfl
    | none =>
      change latest messageSlot _ offset none bytes =
        (latest KeyReply.slot _ offset none bytes).map _
      rw [latest, latest, mapRead, mapRead, mapRead]
      cases readKeyResponseRef proto bytes.tail with
      | error fault => rfl
      | ok result => rfl
  · rw [if_neg own]
    cases now : messageArms proto tag offset (held.map (KeyReply.converted proto)) bytes with
    | error fault => rfl
    | ok result =>
      obtain ⟨msg, taken⟩ := result
      cases held with
      | some other =>
        rw [messageArms_keeps proto tag offset _ bytes msg taken now]
        rfl
      | none => cases msg <;> rfl

theorem decodeMessage_eq (buffer : Bytes) :
    decodeMessage proto buffer = (decodeKeyReply proto buffer).map (KeyReply.converted proto) := by
  have scanned := scan_maps (Option.map (KeyReply.converted proto)) (keyReplyArms_alike proto) none
    buffer
  rw [decodeMessage, decodeKeyReply]
  change (scan (messageArms proto) (none.map (KeyReply.converted proto)) buffer >>= _) = _
  rw [scanned]
  cases scan (keyReplyArms proto) none buffer with
  | error fault => rfl
  | ok result =>
    obtain ⟨_, msg⟩ := result
    cases msg <;> rfl

theorem decodeKeyReply_returns_iff (buffer : Bytes) :
    Returns (decodeKeyReply proto buffer) ↔ Returns (decodeMessage proto buffer) := by
  rw [decodeMessage_eq, returns_map]

omit [DecidableEq Id] in
theorem iterKeys_returns_iff (message : KeyResponseMessageRef) :
    Returns (message.iterKeys proto) ↔ ∃ items, message.iterKeys proto = .ok items := by
  cases gone : message.iterKeys proto with
  | ok items => exact iff_of_true trivial ⟨items, rfl⟩
  | error fault =>
    cases fault with
    | error reason => exact absurd gone (proto.repeating.iterated_no_error _ _ reason)
    | panic => exact iff_of_false id nofun
    | stuck => exact iff_of_false id nofun

end Reply

end Serf.Wire
