import Serf.Wire.Basic

/-!
The codecs of the key messages: the request, which carries at most one key, and
the response, which lists the keys that are installed.
-/

namespace Serf.Wire

open Library.Encoding Library.Fields

variable {Id Address : Type} (proto : Proto Id Address)

section Requests

structure KeyRequestMessage where
  key : Option SecretKey

def keyLen (key : Option SecretKey) : Nat :=
  (key.map fun key => 1 + proto.framing.framedLen proto.secretKey key).getD 0

def keyRequestLen (message : KeyRequestMessage) : Nat := keyLen proto message.key

def keyRequestWriter (message : KeyRequestMessage) (room : Nat) : Writer :=
  .optional (fun key => tagged (keyRequestLen proto message) room (merge .lengthDelimited 1)
    (proto.framing.framed proto.secretKey key)) message.key

structure KeyRequestFields where
  key : Option SecretKey := none

def KeyRequestFields.keySlot : Slot KeyRequestFields SecretKey :=
  { held := key, put := fun fields value => { fields with key := value } }

def keyRequestArms (byte : UInt8) : Arm DecodeError KeyRequestFields :=
  if byte = merge .lengthDelimited 1 then
    latest KeyRequestFields.keySlot (proto.readOwned proto.secretKey)
  else
    pass (proto.skip "KeyRequestMessage")

def keyRequestDecode (buffer : Bytes) : Outcome (Nat × Outcome KeyRequestMessage) := do
  let (offset, fields) ← scan (keyRequestArms proto) {} buffer
  return (offset, .ok { key := fields.key })

def keyRequest : Data KeyRequestMessage :=
  ofWriter (keyRequestLen proto) (keyRequestWriter proto) (keyRequestDecode proto)

def keyRequestParts (message : KeyRequestMessage) : List (List Part) :=
  [message.key.toList.map fun key =>
    ⟨merge .lengthDelimited 1, proto.framing.framed proto.secretKey key⟩]

theorem keyRequest_spells (message : KeyRequestMessage) (room : Nat) :
    (keyRequestWriter proto message room).Spells (keyRequestParts proto message).flatten :=
  Writer.spells_group (Writer.spells_optional message.key fun _ => Writer.spells_field _ _ _)

section

variable {proto}

theorem eq_of_rel {held found : Option SecretKey} (matched : Option.Rel Eq held found) :
    held = found := by
  cases matched with
  | some same => rw [same]
  | none => rfl

theorem key_small (proto : Proto Id Address) (held : Option SecretKey)
    (small : keyLen proto held ≤ maxLen) (key : SecretKey) (given : held = some key) :
    proto.framing.framedLen proto.secretKey key ≤ maxLen := by
  subst given
  change 1 + proto.framing.framedLen proto.secretKey key ≤ maxLen at small
  omega

theorem keyRequest_encodes (encoders : KeyEncoders proto) :
    Encodes (keyRequest proto) (fun _ => True) 0 := by
  refine encodes_ofWriter fun message _ small room => ?_
  have short := key_small proto message.key small
  exact Writer.fits_optional message.key fun key given =>
    Writer.fits_field (encoders.fits encoders.secretKey key trivial (short key given))

theorem keyRequest_lawful (laws : KeyLaws proto) :
    Lawful (keyRequest proto) (fun _ => True) Eq 0 := by
  refine lawful_ofWriter (keyRequest_encodes laws.encoders) ?_
  intro message _ small room bytes made
  refine ⟨message, rfl, ?_⟩
  have short := key_small proto message.key small
  have so := stands_written (keyRequestArms proto) {} (keyRequest_spells proto message room) made
  obtain ⟨found, matched, so⟩ := so.optional message.key (latest_stores rfl)
    (fun key given => laws.readsOwned laws.secretKey key trivial (short key given)) rfl
  rw [keyRequestDecode, so.scans, ← eq_of_rel matched]
  rfl

theorem keyRequest_total (total : FrameTotal proto) (key : TotalCodec proto.secretKey) :
    TotalCodec (keyRequest proto) := by
  have safe : ∀ byte, Safe (fun _ _ => True) (keyRequestArms proto byte) := by
    intro byte
    unfold keyRequestArms
    split_ifs
    · exact latest_safe (total.readOwned key) fun _ _ _ _ _ _ => trivial
    · exact pass_safe (total.skip _) fun _ _ _ _ => trivial
  exact total_of_ends fun buffer => ends_scan safe {} trivial buffer fun _ _ => ⟨le_rfl, trivial⟩

end

end Requests

section Responses

structure KeyResponseMessage where
  result : Bool
  message : String
  keys : List SecretKey
  primaryKey : Option SecretKey

def keyResponseLen (message : KeyResponseMessage) : Nat :=
  List.sum [
    if message.result then 1 + 1 else 0,
    if !message.message.isEmpty then 1 + proto.framing.framedLen proto.str message.message else 0,
    (message.keys.map fun key => 1 + proto.framing.framedLen proto.secretKey key).sum,
    keyLen proto message.primaryKey]

def keyResponseWriter (message : KeyResponseMessage) (room : Nat) : Writer :=
  let len := keyResponseLen proto message
  .all [
    .onlyIf message.result
      (tagged len room (merge .byte 1) (.byte (.insufficientBuffer len room) 1)),
    .onlyIf (!message.message.isEmpty)
      (tagged len room (merge .lengthDelimited 2) (proto.framing.framed proto.str message.message)),
    .all (message.keys.map fun key =>
      tagged len room (merge .lengthDelimited 3) (proto.framing.framed proto.secretKey key)),
    .optional (fun key =>
      tagged len room (merge .lengthDelimited 4) (proto.framing.framed proto.secretKey key))
      message.primaryKey]

structure KeyResponseFields where
  result : Option Bool := none
  message : Option String := none
  keys : Option (Nat × Nat) := none
  primaryKey : Option SecretKey := none

def KeyResponseFields.resultSlot : Slot KeyResponseFields Bool :=
  { held := result, put := fun fields value => { fields with result := value } }

def KeyResponseFields.messageSlot : Slot KeyResponseFields String :=
  { held := message, put := fun fields value => { fields with message := value } }

def KeyResponseFields.keysSlot : Slot KeyResponseFields (Nat × Nat) :=
  { held := keys, put := fun fields value => { fields with keys := value } }

def KeyResponseFields.primaryKeySlot : Slot KeyResponseFields SecretKey :=
  { held := primaryKey, put := fun fields value => { fields with primaryKey := value } }

/-- `buf[offset]` behind a check of the bounds. -/
def checkedByte : Read DecodeError UInt8
  | [] => .error (.error .bufferUnderflow)
  | value :: _ => .ok (1, value)

def keyResponseArms (byte : UInt8) : Arm DecodeError KeyResponseFields :=
  if byte = merge .byte 1 then
    once KeyResponseFields.resultSlot (.duplicateField "KeyResponseMessage" "result" 1)
      (mapRead (fun value => value != 0) checkedByte)
  else if byte = merge .lengthDelimited 2 then
    once KeyResponseFields.messageSlot (.duplicateField "KeyResponseMessage" "message" 2)
      (proto.readOwned proto.str)
  else if byte = merge .lengthDelimited 3 then
    spread KeyResponseFields.keysSlot (proto.skip "KeyResponseMessage")
  else if byte = merge .lengthDelimited 4 then
    once KeyResponseFields.primaryKeySlot
      (.duplicateField "KeyResponseMessage" "primary_key" 4) (proto.readOwned proto.secretKey)
  else
    pass (proto.skip "KeyResponseMessage")

def keyResponseDecode (buffer : Bytes) : Outcome (Nat × Outcome KeyResponseMessage) := do
  let (offset, fields) ← scan (keyResponseArms proto) {} buffer
  return (offset, do
    let keys ← proto.collect proto.secretKey .lengthDelimited 3 buffer fields.keys
    return {
      result := fields.result.getD false, message := fields.message.getD "", keys
      primaryKey := fields.primaryKey })

def keyResponse : Data KeyResponseMessage :=
  ofWriter (keyResponseLen proto) (keyResponseWriter proto) (keyResponseDecode proto)

def keyResponseParts (message : KeyResponseMessage) : List (List Part) :=
  [if message.result then [⟨merge .byte 1, .byte .tooLarge 1⟩] else [],
    if !message.message.isEmpty then
      [⟨merge .lengthDelimited 2, proto.framing.framed proto.str message.message⟩] else [],
    message.keys.map fun key =>
      ⟨merge .lengthDelimited 3, proto.framing.framed proto.secretKey key⟩,
    message.primaryKey.toList.map fun key =>
      ⟨merge .lengthDelimited 4, proto.framing.framed proto.secretKey key⟩]

theorem keyResponse_spells (message : KeyResponseMessage) (room : Nat) :
    (keyResponseWriter proto message room).Spells (keyResponseParts proto message).flatten :=
  Writer.spells_all
    (.cons (Writer.spells_onlyIf (Writer.spells_byte _ _ _ _ _))
    (.cons (Writer.spells_onlyIf (Writer.spells_field _ _ _))
    (.cons (Writer.spells_each _ fun _ => Writer.spells_field _ _ _)
    (.cons (Writer.spells_optional _ fun _ => Writer.spells_field _ _ _) .nil))))

variable {proto}

theorem keyResponse_encodes (encoders : KeyEncoders proto) :
    Encodes (keyResponse proto) (fun _ => True) 0 := by
  refine encodes_ofWriter fun message _ small room => ?_
  simp only [keyResponseLen, List.sum_cons, List.sum_nil] at small
  have keys := items_small proto proto.secretKey message.keys (by omega)
  have primary := key_small proto message.primaryKey (by omega)
  exact Writer.fits_all
    (.cons (Writer.fits_onlyIf fun _ => Writer.fits_field (Writer.fits_byte _ 1))
    (.cons (Writer.fits_onlyIf fun present => Writer.fits_field
      (encoders.fits encoders.str message.message trivial (by
        rw [if_pos present] at small
        omega)))
    (.cons (Writer.fits_each _ _ _ 0 fun key inside => Writer.fits_field
      (encoders.fits encoders.secretKey key trivial (keys key inside)))
    (.cons (Writer.fits_optional message.primaryKey fun key given => Writer.fits_field
      (encoders.fits encoders.secretKey key trivial (primary key given))) .nil))))

theorem keyResponse_lawful (laws : KeyLaws proto) :
    Lawful (keyResponse proto) (fun _ => True) Eq 0 := by
  refine lawful_ofWriter (keyResponse_encodes laws.encoders) ?_
  intro message _ small room bytes made
  refine ⟨message, rfl, ?_⟩
  simp only [keyResponseLen, List.sum_cons, List.sum_nil] at small
  have keys := items_small proto proto.secretKey message.keys (by omega)
  have primary := key_small proto message.primaryKey (by omega)
  have so := stands_written (keyResponseArms proto) {} (keyResponse_spells proto message room) made
  obtain ⟨result, keptResult, so⟩ := so.elided message.result (fun _ => rfl)
    (fun _ => byte_inverts _ 1 _ true fun _ => rfl) rfl
  obtain ⟨text, keptText, so⟩ := so.elided (!message.message.isEmpty) (fun _ => rfl)
    (fun present => laws.readsOwned laws.str message.message trivial (by
      rw [if_pos present] at small
      omega)) rfl
  obtain ⟨_, list, sameList, held, so⟩ := laws.collects laws.secretKey message.keys so rfl
   
    (fun key inside => laws.skips laws.secretKey laws.secretKeyWire key trivial (keys key inside)
      "KeyResponseMessage" 3 (by decide)) (fun _ _ => trivial) keys rfl
  obtain ⟨found, matched, so⟩ := so.optional message.primaryKey (once_stores rfl rfl)
    (fun key given => laws.readsOwned laws.secretKey key trivial (primary key given)) rfl
  have same := eq_of_rel matched
  rw [List.forall₂_eq_eq_eq] at sameList
  rw [keyResponseDecode, so.scans]
  simp [KeyResponseFields.resultSlot, KeyResponseFields.messageSlot,
    KeyResponseFields.keysSlot, KeyResponseFields.primaryKeySlot, bind, Except.bind, pure,
    Except.pure, held, ← same, ← sameList, elided_flag keptResult,
    elided_value keptText isEmpty_string]

theorem checkedByte_total : Total checkedByte 1 fun _ => True := by
  constructor
  · intro bytes taken value now
    cases bytes with
    | nil => cases now
    | cons first rest =>
      cases now
      exact ⟨le_rfl, by simp, trivial⟩
  · intro bytes
    cases bytes <;> trivial

theorem keyResponse_total (total : FrameTotal proto) (str : TotalCodec proto.str)
    (key : TotalCodec proto.secretKey) : TotalCodec (keyResponse proto) := by
  have safe : ∀ byte, Safe (fun offset fields => Within fields.keys offset)
      (keyResponseArms proto byte) := by
    intro byte
    unfold keyResponseArms
    split_ifs
    · exact once_safe (total_mapRead (fun _ => True) checkedByte_total fun _ _ => trivial)
        fun _ taken _ _ held _ => within_grows taken held
    · exact once_safe (total.readOwned str) fun _ taken _ _ held _ =>
        within_grows taken held
    · exact spread_safe (total.skip _) fun _ taken _ held => within_extend taken held
    · exact once_safe (total.readOwned key) fun _ taken _ _ held _ =>
        within_grows taken held
    · exact pass_safe (total.skip _) fun _ taken _ held => within_grows taken held
  refine total_of_ends fun buffer => ends_scan safe {} trivial buffer ?_
  intro fields held
  exact ⟨le_rfl, returns_bind (total.collect key _ 3 buffer _ held) fun _ _ => trivial⟩

end Responses

end Serf.Wire
