import Serf.Library.Extent
import Serf.Wire.Basic

/-!
The primitive codecs of memberlist-proto, with ids and addresses that are single
bytes. Lengths and other integers are varints; a string or a payload takes its
whole slice; a node, an entry of a table and a tag are messages of two fields, a
key is a message of one.
-/

namespace Serf.Wire

open Library.Encoding Library.Fields Library.LittleEndian QueryHandler

section Copied

variable {Value : Type} (wire : WireType) (toBytes : Value → Bytes)
  (read : Bytes → Except DecodeError (Nat × Value))

def copied : Data Value where
  wireType := wire
  encodedLen value := (toBytes value).length
  encode value room :=
    (Writer.raw (.insufficientBuffer (toBytes value).length room) (toBytes value)).write room
  decode bytes :=
    match read bytes with
    | .error reason => .error (.error reason)
    | .ok (taken, value) => .ok (taken, .ok value)
  bounded _ room := (Writer.raw _ _).bounded room

variable {wire toBytes read}

theorem copied_makes (value : Value) (bytes : Bytes)
    (made : (Writer.ofCodec (copied wire toBytes read) value).Makes bytes) :
    bytes = toBytes value := by
  obtain ⟨room, written⟩ := made
  exact Writer.makes_raw _ _ bytes ⟨room, written⟩

theorem copied_fits (value : Value) :
    (Writer.ofCodec (copied wire toBytes read) value).Fits (toBytes value).length 0 := by
  constructor
  · intro bytes made
    rw [copied_makes value bytes made]
  · intro room enough
    exact (Writer.fits_raw _ (toBytes value)).writes room enough

theorem copied_encodes {good : Value → Prop} : Encodes (copied wire toBytes read) good 0 :=
  fun value _ _ => copied_fits value

theorem copied_orderly (value : Value) :
    (Writer.ofCodec (copied wire toBytes read) value).Orderly :=
  fun room reason failed => Writer.orderly_raw _ room (toBytes value) room reason failed

theorem copied_lawful {good : Value → Prop}
    (back : ∀ value, good value → ∀ more, (wire = .lengthDelimited → more = []) →
      read (toBytes value ++ more) = .ok ((toBytes value).length, value)) :
    Lawful (copied wire toBytes read) good Eq 0 := by
  refine ⟨copied_encodes, ?_⟩
  intro value valid _ bytes made
  rw [copied_makes value bytes made]
  refine ⟨value, rfl, ?_⟩
  intro more delimited
  simp only [copied, back value valid more delimited]

theorem copied_total
    (takes : ∀ bytes taken value, read bytes = .ok (taken, value) →
      (if wire = .lengthDelimited then 0 else 1) ≤ taken ∧ taken ≤ bytes.length) :
    TotalCodec (copied wire toBytes read) := by
  constructor
  · intro bytes taken value now
    simp only [copied] at now
    split at now
    · cases now
    · rename_i reads
      cases now
      exact ⟨(takes bytes _ _ reads).1, (takes bytes _ _ reads).2, trivial⟩
  · intro bytes
    simp only [copied]
    split <;> trivial

end Copied

section Kinds

variable {Value : Type}

def oneByte (toByte : Value → UInt8) (ofByte : UInt8 → Value) : Data Value :=
  copied .byte (fun value => [toByte value]) fun
    | [] => .error .bufferUnderflow
    | byte :: _ => .ok (1, ofByte byte)

theorem oneByte_lawful {toByte : Value → UInt8} {ofByte : UInt8 → Value}
    (back : ∀ value, ofByte (toByte value) = value) :
    Plain (oneByte toByte ofByte) fun _ => True where
  toLawful := copied_lawful fun value _ more _ => by simp [back]
  plain := nofun

theorem oneByte_total (toByte : Value → UInt8) (ofByte : UInt8 → Value) :
    TotalCodec (oneByte toByte ofByte) := by
  refine copied_total fun bytes taken value now => ?_
  cases bytes with
  | nil => cases now
  | cons byte rest =>
    cases now
    simp

def varint (more bound : Nat) (toNat : Value → Nat) (ofNat : Nat → Value) : Data Value :=
  copied .varint (fun value => toVarint more (toNat value)) fun bytes =>
    match fromVarint more bytes with
    | none => .error .bufferUnderflow
    | some (read, n) =>
      if n < bound then .ok (read, ofNat n) else .error (.custom "varint overflow")

theorem varint_lawful {more bound : Nat} {toNat : Value → Nat} {ofNat : Nat → Value}
    (good : Value → Prop) (enough : bound ≤ 128 ^ (more + 1))
    (fits : ∀ value, good value → toNat value < bound)
    (back : ∀ value, ofNat (toNat value) = value) :
    Plain (varint more bound toNat ofNat) good where
  toLawful := copied_lawful fun value valid after _ => by
    have small := fits value valid
    rw [fromVarint_toVarint more _ (by omega)]
    simp only [if_pos small, back]
  plain := nofun

theorem varint_total (more bound : Nat) (toNat : Value → Nat) (ofNat : Nat → Value) :
    TotalCodec (varint more bound toNat ofNat) := by
  refine copied_total fun bytes taken value now => ?_
  split at now
  · cases now
  · rename_i reads
    split at now
    · cases now
      exact fromVarint_read more bytes _ _ reads
    · cases now

def wholeSlice (toBytes : Value → Bytes) (ofBytes : Bytes → Except DecodeError Value) :
    Data Value :=
  copied .lengthDelimited toBytes fun bytes => (ofBytes bytes).map fun value =>
    (bytes.length, value)

theorem wholeSlice_lawful {toBytes : Value → Bytes} {ofBytes : Bytes → Except DecodeError Value}
    (back : ∀ value, ofBytes (toBytes value) = .ok value) :
    Lawful (wholeSlice toBytes ofBytes) (fun _ => True) Eq 0 := by
  refine copied_lawful fun value _ more delimited => ?_
  rw [delimited rfl, List.append_nil, back]
  rfl

theorem wholeSlice_makes (toBytes : Value → Bytes) (ofBytes : Bytes → Except DecodeError Value)
    (value : Value) (bytes : Bytes)
    (made : (Writer.ofCodec (wholeSlice toBytes ofBytes) value).Makes bytes) :
    bytes = toBytes value :=
  copied_makes value bytes made

theorem wholeSlice_total (toBytes : Value → Bytes) (ofBytes : Bytes → Except DecodeError Value) :
    TotalCodec (wholeSlice toBytes ofBytes) := by
  refine copied_total fun bytes taken value now => ?_
  cases read : ofBytes bytes with
  | error reason =>
    rw [read] at now
    cases now
  | ok value =>
    rw [read] at now
    cases now
    exact ⟨Nat.zero_le _, le_rfl⟩

end Kinds

section Parts

def fixedF64 : Data F64 :=
  copied .fixed64 (fun value => toLeBytes 8 value.toNat) fun bytes =>
    if bytes.length < 8 then
      .error .bufferUnderflow
    else
      .ok (8, UInt64.ofNat (fromLeBytes (bytes.take 8)))

theorem fixedF64_total : TotalCodec fixedF64 := by
  refine copied_total fun bytes taken value now => ?_
  split at now
  · cases now
  · cases now
    simp only [reduceCtorEq, if_false]
    omega

def readText (bytes : Bytes) : Except DecodeError String :=
  match String.fromUTF8? ⟨bytes.toArray⟩ with
  | some text => .ok text
  | none => .error (.custom "invalid utf-8")

theorem readText_utf8 (text : String) : readText (utf8 text) = .ok text := by
  have same : (⟨(utf8 text).toArray⟩ : ByteArray) = text.toByteArray := rfl
  rw [readText, same, String.fromUTF8?, dif_pos text.isValidUTF8]
  rfl

end Parts

section Skip

def varintU32 : Data UInt32 := varint 4 (2 ^ 32) UInt32.toNat UInt32.ofNat

def clamped (rest : Bytes) (size : Nat) : Except (Fault DecodeError) Nat :=
  .ok (1 + min size rest.length)

def skipField : Skip DecodeError
  | [] => .ok 0
  | tag :: rest =>
    if tag >>> 3 = WireType.byte.code then
      clamped rest 1
    else if tag >>> 3 = WireType.varint.code then
      match fromVarint 13 rest with
      | none => .error (.error .bufferUnderflow)
      | some (read, _) => clamped rest read
    else if tag >>> 3 = WireType.lengthDelimited.code then
      match fromVarint 4 rest with
      | none => .error (.error .bufferUnderflow)
      | some (read, length) =>
        if length ≤ maxLen then clamped rest (read + length)
        else .error (.error (.custom "varint overflow"))
    else if tag >>> 3 = WireType.fixed32.code then
      clamped rest 4
    else if tag >>> 3 = WireType.fixed64.code then
      clamped rest 8
    else
      .error (.error (.custom "unknown wire type"))

theorem clamped_skips (tag : UInt8) (rest : Bytes) (size : Nat) :
    Returns (clamped rest size) ∧
      ∀ taken, clamped rest size = .ok taken → 1 ≤ taken ∧ taken ≤ (tag :: rest).length := by
  refine ⟨trivial, ?_⟩
  rintro taken ⟨⟩
  rw [List.length_cons]
  omega

theorem skipField_skips : Skips skipField := by
  have both : ∀ tag rest, Returns (skipField (tag :: rest)) ∧
      ∀ taken, skipField (tag :: rest) = .ok taken →
        1 ≤ taken ∧ taken ≤ (tag :: rest).length := by
    intro tag rest
    have fails : ∀ reason : DecodeError,
        Returns (.error (.error reason) : Except (Fault DecodeError) Nat) ∧
          ∀ taken, (.error (.error reason) : Except (Fault DecodeError) Nat) = .ok taken →
            1 ≤ taken ∧ taken ≤ (tag :: rest).length :=
      fun _ => ⟨trivial, fun _ => nofun⟩
    rw [skipField]
    split_ifs
    · exact clamped_skips tag rest 1
    · split
      · exact fails _
      · exact clamped_skips tag rest _
    · split
      · exact fails _
      · split
        · exact clamped_skips tag rest _
        · exact fails _
    · exact clamped_skips tag rest 4
    · exact clamped_skips tag rest 8
    · exact ⟨trivial, fun _ none => none.elim⟩
  constructor
  · intro bytes
    cases bytes with
    | nil => trivial
    | cons tag rest => exact (both tag rest).1
  · intro bytes taken given now
    cases bytes with
    | nil => exact absurd rfl given
    | cons tag rest => exact (both tag rest).2 taken now

theorem merge_wire (wire : WireType) (tag : UInt8) (low : tag < 8) :
    merge wire tag >>> 3 = wire.code := by
  apply UInt8.toNat_inj.mp
  rw [UInt8.lt_iff_toNat_lt] at low
  -- The number of the field fills the three bits below the wire type.
  have none : tag.toNat >>> 3 = 0 := by
    rw [Nat.shiftRight_eq_div_pow]
    exact Nat.div_eq_of_lt low
  rw [merge, UInt8.toNat_shiftRight, UInt8.toNat_or]
  change ((wire.code <<< 3).toNat ||| tag.toNat) >>> 3 = _
  rw [Nat.shiftRight_or_distrib, none, Nat.or_zero]
  cases wire <;> rfl

theorem skipField_clamps : Clamps skipField := by
  intro wire number rest taken low reach
  rw [skipField, merge_wire wire number low]
  cases wire with
  | byte | fixed32 | fixed64 =>
    cases reach
    rfl
  | varint =>
    obtain ⟨⟨read, value⟩, found, rfl⟩ := Option.map_eq_some_iff.mp reach
    rw [if_neg (by decide), if_pos rfl, found]
    rfl
  | lengthDelimited =>
    obtain ⟨⟨front, length⟩, found, inside⟩ := Option.bind_eq_some_iff.mp reach
    obtain ⟨small, same⟩ := Option.ite_none_right_eq_some.mp inside
    cases same
    rw [if_neg (by decide), if_neg (by decide), if_pos rfl, found]
    exact if_pos small

theorem skipField_extents : Extents skipField := skipField_clamps.extents

theorem varintU32_lengths : LengthPrefix varintU32 where
  toPlain := varint_lawful _ (by decide) (fun value _ => value.toNat_lt) fun _ => UInt32.ofNat_toNat
  short length := le_trans (length_toVarint 4 length.toNat) (by decide)

theorem varintU32_read : LengthVarint varintU32 := by
  intro length front made
  rw [copied_makes length front made]
  have fits : length.toNat < 128 ^ 5 := lt_trans length.toNat_lt (by decide)
  have read := fromVarint_toVarint 4 length.toNat fits []
  rwa [List.append_nil] at read

theorem varintU32_total : Total varintU32.decodeOwned 1 fun _ => True := by
  rw [decodeOwned_eq]
  exact total_owned (varint_total 4 (2 ^ 32) UInt32.toNat UInt32.ofNat)

def varintFraming : Framing DecodeError := .ofU32 varintU32 .bufferUnderflow

end Skip

section Pairs

variable {First Second : Type} (type firstName secondName : String) (first : Data First)
  (second : Data Second)

def pairLen (pair : First × Second) : Nat :=
  List.sum [
    1 + varintFraming.framedLen first pair.1,
    1 + varintFraming.framedLen second pair.2]

def pairWriter (pair : First × Second) (room : Nat) : Writer :=
  let len := pairLen first second pair
  .all [
    tagged len room (merge first.wireType 1) (varintFraming.framed first pair.1),
    tagged len room (merge second.wireType 2) (varintFraming.framed second pair.2)]

structure PairFields (First Second : Type) where
  first : Option (Outcome First) := none
  second : Option (Outcome Second) := none

def PairFields.firstSlot : Slot (PairFields First Second) (Outcome First) :=
  { held := PairFields.first, put := fun fields value => { fields with first := value } }

def PairFields.secondSlot : Slot (PairFields First Second) (Outcome Second) :=
  { held := PairFields.second, put := fun fields value => { fields with second := value } }

def pairArms (byte : UInt8) : Arm DecodeError (PairFields First Second) :=
  if byte = merge first.wireType 1 then
    once PairFields.firstSlot (.duplicateField type firstName 1) (varintFraming.read first)
  else if byte = merge second.wireType 2 then
    once PairFields.secondSlot (.duplicateField type secondName 2) (varintFraming.read second)
  else
    pass skipField

def pairRef : Read DecodeError (Outcome First × Outcome Second) := fun buffer => do
  let (offset, fields) ← scan (pairArms type firstName secondName first second) {} buffer
  let first ← need type firstName fields.first
  let second ← need type secondName fields.second
  return (offset, first, second)

def convertPair (pair : Outcome First × Outcome Second) : Outcome (First × Second) := do
  let first ← pair.1
  let second ← pair.2
  return (first, second)

def pair : Data (First × Second) :=
  ofWriter (pairLen first second) (pairWriter first second)
    (mapRead convertPair (pairRef type firstName secondName first second))

variable {first second}

theorem pairArms_second :
    pairArms type firstName secondName first second (merge second.wireType 2) =
      once PairFields.secondSlot (.duplicateField type secondName 2)
        (varintFraming.read second) := by
  rw [pairArms, if_neg (merge_ne _ _ _ _ (by decide)), if_pos rfl]

theorem pair_fits (one : Encodes first (fun _ => True) 0) (two : Encodes second (fun _ => True) 0)
    (pair : First × Second) (small : pairLen first second pair ≤ maxLen) (room : Nat) :
    (pairWriter first second pair room).Fits (pairLen first second pair) 0 := by
  simp only [pairLen, List.sum_cons, List.sum_nil] at small
  have short : first.encodedLen pair.1 ≤ maxLen := framed_small varintFraming pair.1 (by omega)
  have brief : second.encodedLen pair.2 ≤ maxLen := framed_small varintFraming pair.2 (by omega)
  exact Writer.fits_all
    (.cons (Writer.fits_field (fits_frame varintU32_lengths.encodes _ (one _ trivial short) short))
      (.cons (Writer.fits_field
        (fits_frame varintU32_lengths.encodes _ (two _ trivial brief) brief))
        .nil))

theorem pairRef_reads (one : Lawful first (fun _ => True) Eq 0)
    (two : Lawful second (fun _ => True) Eq 0) (pair : First × Second)
    (small : pairLen first second pair ≤ maxLen) (room : Nat) (bytes : Bytes)
    (made : (pairWriter first second pair room).Makes bytes) :
    pairRef type firstName secondName first second bytes =
      .ok (bytes.length, .ok pair.1, .ok pair.2) := by
  simp only [pairLen, List.sum_cons, List.sum_nil] at small
  have short : first.encodedLen pair.1 ≤ maxLen := framed_small varintFraming pair.1 (by omega)
  have brief : second.encodedLen pair.2 ≤ maxLen := framed_small varintFraming pair.2 (by omega)
  have spells : (pairWriter first second pair room).Spells
      [[⟨merge first.wireType 1, varintFraming.framed first pair.1⟩],
        [⟨merge second.wireType 2, varintFraming.framed second pair.2⟩]].flatten :=
    Writer.spells_all (.cons (Writer.spells_field _ _ _) (.cons (Writer.spells_field _ _ _) .nil))
  have so := stands_written (pairArms type firstName secondName first second) {} spells made
  obtain ⟨_, ⟨_, rfl, rfl⟩, so⟩ := so.field (once_stores (if_pos rfl) rfl)
    (framed_inverts varintU32_lengths one pair.1 trivial short)
  obtain ⟨_, ⟨_, rfl, rfl⟩, so⟩ := so.field
    (once_stores (pairArms_second type firstName secondName) rfl)
    (framed_inverts varintU32_lengths two pair.2 trivial brief)
  rw [pairRef, so.scans]
  simp [PairFields.firstSlot, PairFields.secondSlot, need, bind, Except.bind, pure, Except.pure]

theorem pair_lawful (one : Lawful first (fun _ => True) Eq 0)
    (two : Lawful second (fun _ => True) Eq 0) :
    Lawful (pair type firstName secondName first second) (fun _ => True) Eq 0 := by
  refine lawful_ofWriter (encodes_ofWriter fun pair _ => pair_fits one.fits two.fits pair) ?_
  intro pair _ small room bytes made
  refine ⟨pair, rfl, ?_⟩
  rw [mapRead, pairRef_reads type firstName secondName one two pair small room bytes made]
  rfl

theorem pairRef_total (one : TotalCodec first) (two : TotalCodec second) :
    Total (pairRef type firstName secondName first second) 0
      fun pair => Returns pair.1 ∧ Returns pair.2 := by
  have safe : ∀ byte, Safe (fun _ fields => Settled fields.first ∧ Settled fields.second)
      (pairArms type firstName secondName first second byte) := by
    intro byte
    unfold pairArms
    split_ifs
    · exact once_safe (total_framed varintU32_total one) fun _ _ _ _ held back =>
        ⟨settled_some back, held.2⟩
    · exact once_safe (total_framed varintU32_total two) fun _ _ _ _ held back =>
        ⟨held.1, settled_some back⟩
    · exact pass_safe skipField_skips fun _ _ _ held => held
  refine total_of_ends fun buffer => ends_scan safe {} ⟨settled_none, settled_none⟩ buffer ?_
  intro fields settled
  exact ends_need _ _ _ fun one held => ends_need _ _ _ fun two kept =>
    ⟨le_rfl, settled.1 one held, settled.2 two kept⟩

theorem pair_total (one : TotalCodec first) (two : TotalCodec second) :
    TotalCodec (pair type firstName secondName first second) :=
  total_mapRead Returns (pairRef_total type firstName secondName one two) fun _ back =>
    returns_bind back.1 fun _ _ => returns_bind back.2 fun _ _ => trivial

end Pairs

section Keys

def keyOf (bytes : Bytes) : Outcome SecretKey :=
  if size : bytes.length = 16 ∨ bytes.length = 24 ∨ bytes.length = 32 then
    .ok { bytes, size }
  else
    .error (.error (.custom "invalid key length"))

theorem keyOf_bytes (key : SecretKey) : keyOf key.bytes = .ok key := dif_pos key.size

def rawBytes : Data Bytes := wholeSlice id .ok

def secretKeyLen (key : SecretKey) : Nat := 1 + varintFraming.framedLen rawBytes key.bytes

def secretKeyWriter (key : SecretKey) (room : Nat) : Writer :=
  tagged (secretKeyLen key) room (merge .lengthDelimited 1)
    (varintFraming.framed rawBytes key.bytes)

/-- The slice is taken without a look at how much there is; `missing` is what comes of it. -/
def readKey (missing : Fault DecodeError) : Read DecodeError SecretKey := fun bytes =>
  match varintU32.decodeOwned bytes with
  | .error fault => .error fault
  | .ok (read, length) =>
    if bytes.length < read + length.toNat then
      .error missing
    else
      (keyOf ((bytes.drop read).take length.toNat)).map fun key => (read + length.toNat, key)

def heldSlot {Value : Type} : Slot (Option Value) Value :=
  { held := fun held => held, put := fun _ held => held }

def secretKeyArms (missing : Fault DecodeError) (byte : UInt8) :
    Arm DecodeError (Option SecretKey) :=
  if byte = merge .lengthDelimited 1 then
    once heldSlot (.duplicateField "SecretKey" "bytes" 1) (readKey missing)
  else
    pass skipField

def secretKeyDecode (missing : Fault DecodeError) : Read DecodeError (Outcome SecretKey) :=
  fun buffer => do
    let (offset, held) ← scan (secretKeyArms missing) none buffer
    let key ← need "SecretKey" "bytes" held
    return (offset, .ok key)

def secretKeyData (missing : Fault DecodeError) : Data SecretKey :=
  ofWriter secretKeyLen secretKeyWriter (secretKeyDecode missing)

theorem rawBytes_lawful : Lawful rawBytes (fun _ => True) Eq 0 := wholeSlice_lawful fun _ => rfl

theorem secretKeyLen_small (key : SecretKey) (small : secretKeyLen key ≤ maxLen) :
    rawBytes.encodedLen key.bytes ≤ maxLen := by
  unfold secretKeyLen at small
  exact framed_small varintFraming key.bytes (by omega)

theorem secretKey_fits (key : SecretKey) (small : secretKeyLen key ≤ maxLen) (room : Nat) :
    (secretKeyWriter key room).Fits (secretKeyLen key) 0 := by
  have short := secretKeyLen_small key small
  exact Writer.fits_field
    (fits_frame varintU32_lengths.encodes _ (rawBytes_lawful.fits _ trivial short) short)

theorem readKey_inverts (missing : Fault DecodeError) (key : SecretKey)
    (short : rawBytes.encodedLen key.bytes ≤ maxLen) :
    Inverts (varintFraming.framed rawBytes key.bytes) (readKey missing) (key = ·) := by
  intro bytes made
  obtain ⟨front, body, rfl, small, head, tail⟩ :=
    makes_framed rfl key.bytes (rawBytes_lawful.fits key.bytes trivial short) bytes made
  obtain rfl : body = key.bytes := wholeSlice_makes id .ok key.bytes body tail
  refine ⟨key, rfl, ?_⟩
  intro more
  have length := length_reads varintU32_lengths key.bytes.length front head (key.bytes ++ more)
  rw [← List.append_assoc] at length
  have enough : ¬ (front ++ key.bytes ++ more).length < front.length + key.bytes.length := by
    simp only [List.length_append]
    omega
  have slice : ((front ++ key.bytes ++ more).drop front.length).take key.bytes.length =
      key.bytes := by
    rw [List.append_assoc, List.drop_left, List.take_left]
  rw [readKey, length]
  simp only [toNat_length _ small, if_neg enough, slice, keyOf_bytes, Except.map]
  rw [List.length_append]

theorem secretKeyData_lawful (missing : Fault DecodeError) :
    Lawful (secretKeyData missing) (fun _ => True) Eq 0 := by
  refine lawful_ofWriter (encodes_ofWriter fun key _ => secretKey_fits key) ?_
  intro key _ small room bytes made
  refine ⟨key, rfl, ?_⟩
  have short := secretKeyLen_small key small
  have spells : (secretKeyWriter key room).Spells
      [[⟨merge .lengthDelimited 1, varintFraming.framed rawBytes key.bytes⟩]].flatten :=
    Writer.spells_field _ _ _
  have so := stands_written (secretKeyArms missing) none spells made
  obtain ⟨_, rfl, so⟩ := so.field (once_stores (if_pos rfl) rfl) (readKey_inverts missing key short)
  rw [secretKeyDecode, so.scans]
  rfl

theorem readKey_takes (missing : Fault DecodeError) :
    Takes (readKey missing) 1 fun _ => True := by
  intro bytes taken key now
  unfold readKey at now
  split at now
  · cases now
  · rename_i read length announced
    split at now
    · cases now
    · obtain ⟨_, _, equal⟩ := map_ok now
      cases equal
      have front := varintU32_total.takes bytes read length announced
      exact ⟨by omega, by omega, trivial⟩

theorem secretKeyData_total (reason : DecodeError) :
    TotalCodec (secretKeyData (.error reason)) := by
  have returns : ∀ bytes, Returns (readKey (.error reason) bytes) := by
    intro bytes
    have front := varintU32_total.returns bytes
    unfold readKey
    split
    · rename_i failed
      rw [failed] at front
      exact front
    · split
      · trivial
      · rw [returns_map, keyOf]
        split <;> trivial
  have safe : ∀ byte, Safe (fun _ _ => True) (secretKeyArms (.error reason) byte) := by
    intro byte
    unfold secretKeyArms
    split
    · exact once_safe ⟨readKey_takes _, returns⟩ fun _ _ _ _ _ _ => trivial
    · exact pass_safe skipField_skips fun _ _ _ _ => trivial
  refine total_of_ends fun buffer => ends_scan safe none trivial buffer ?_
  intro held _
  exact ends_need _ _ _ fun key _ => ⟨le_rfl, trivial⟩

theorem filled_size (byte : UInt8) : (List.replicate 16 byte).length = 16 := List.length_replicate

def SecretKey.filled (byte : UInt8) : SecretKey :=
  ⟨List.replicate 16 byte, .inl (filled_size byte)⟩

end Keys

section Reference

/-- Octal escapes are an option of `RegexBuilder` that `Regex::new` leaves off. -/
def octal : String := "\\141"

def oneByteId : Data UInt8 := oneByte id id

def text : Data String := wholeSlice utf8 readText

def varintU64 : Data UInt64 := varint 9 (2 ^ 64) UInt64.toNat UInt64.ofNat

def nodePair (node : Node UInt8 UInt8) : UInt8 × UInt8 := (node.id, node.address)

def nodeOfPair (pair : Outcome UInt8 × Outcome UInt8) : NodeRef UInt8 UInt8 where
  id := pair.1
  address := pair.2

def referenceNode : NodeData UInt8 UInt8 where
  wireType := .lengthDelimited
  encodedLen node := pairLen oneByteId oneByteId (nodePair node)
  encode node room := (pairWriter oneByteId oneByteId (nodePair node) room).write room
  decodeRef := mapRead nodeOfPair (pairRef "Node" "id" "address" oneByteId oneByteId)
  bounded _ room := (pairWriter ..).bounded room

def reference : Proto UInt8 UInt8 where
  framing := varintFraming
  u8 := oneByte id id
  u64 := varintU64
  f64 := fixedF64
  bool := oneByte (fun value => if value then 1 else 0) (fun byte => byte != 0)
  duration := varint 13 (2 ^ 64 * 1000000000) id id
  str := text
  bytes := rawBytes
  id := oneByteId
  nodeData := referenceNode
  statusLtime := pair "Tuple" "key" "value" oneByteId varintU64
  tag := pair "Tuple" "key" "value" text text
  secretKey := secretKeyData .panic
  skip _ := skipField
  repeating := .skipping skipField
  regexNew pattern :=
    if pattern = octal then
      .error "backreferences are not supported"
    else
      .ok { pattern, isMatch := fun _ => true }

theorem oneByteId_lawful : Plain oneByteId fun _ => True := oneByte_lawful fun _ => rfl

theorem text_lawful : Lawful text (fun _ => True) Eq 0 := wholeSlice_lawful readText_utf8

theorem varintU64_lawful : Plain varintU64 fun _ => True :=
  varint_lawful _ (by decide) (fun value _ => value.toNat_lt) fun _ => UInt64.ofNat_toNat

theorem referenceNode_reads (node : Node UInt8 UInt8)
    (small : pairLen oneByteId oneByteId (nodePair node) ≤ maxLen) (room : Nat) (bytes : Bytes)
    (made : (pairWriter oneByteId oneByteId (nodePair node) room).Makes bytes) :
    referenceNode.decodeRef bytes = .ok (bytes.length, borrowNode node) := by
  have id := oneByteId_lawful.toLawful
  have read := pairRef_reads "Node" "id" "address" id id (nodePair node) small room bytes made
  simp only [referenceNode, mapRead, read]
  rfl

theorem referenceNode_lawful : Lawful referenceNode.data (fun _ => True) Eq 0 := by
  have id := oneByteId_lawful.toLawful
  change Lawful (ofWriter (fun node => pairLen oneByteId oneByteId (nodePair node))
    (fun node => pairWriter oneByteId oneByteId (nodePair node))
    (mapRead convertNode referenceNode.decodeRef)) _ _ 0
  refine lawful_ofWriter
    (encodes_ofWriter fun node _ => pair_fits id.fits id.fits (nodePair node)) ?_
  intro node _ small room bytes made
  refine ⟨node, rfl, ?_⟩
  rw [mapRead, referenceNode_reads node small room bytes made]
  rfl

theorem referenceNode_total : Total referenceNode.decodeRef 0 fun node =>
    Returns node.id ∧ Returns node.address := by
  have parts := pairRef_total "Node" "id" "address" (oneByte_total id id) (oneByte_total id id)
  change Total (mapRead nodeOfPair (pairRef "Node" "id" "address" oneByteId oneByteId)) 0 _
  exact total_mapRead _ parts fun _ back => back

theorem reference_laws : ProtoLaws reference where
  u8Len _ := rfl
  u8Byte _ _ := rfl
  u32 := varintU32_lengths
  u64 := varintU64_lawful
  bool := oneByte_lawful fun value => by cases value <;> rfl
  boolLen := rfl
  boolByte _ := rfl
  duration := varint_lawful _ (by decide) (fun _ small => small) fun _ => rfl
  str := text_lawful
  strWire := rfl
  strBytes text := by
    simp only [reference, Wire.text, wholeSlice, copied, readText_utf8, Except.map]
  bytes := rawBytes_lawful
  id := oneByteId_lawful.toLawful
  node := referenceNode_lawful
  statusLtime := pair_lawful _ _ _ oneByteId_lawful.toLawful varintU64_lawful.toLawful
  statusLtimeWire := rfl
  tag := pair_lawful _ _ _ text_lawful text_lawful
  tagWire := rfl
  secretKey := secretKeyData_lawful .panic
  secretKeyWire := rfl
  regexText pattern regex compiled := by
    simp only [reference] at compiled
    split at compiled
    · cases compiled
    · cases compiled
      rfl
  skipsFrame _ tag low length front body more made small exact := by
    subst exact
    have read := varintU32_read _ front made
    rw [toNat_length body.length small] at read
    exact skipField_extents _ tag _ more low (spans_lengthDelimited small read)
  skipsId _ _ tag low value content more made := by
    rw [copied_makes value content made]
    exact skipField_extents _ tag _ more low (spans_byte_iff.mpr rfl)

theorem reference_total : ProtoTotal reference where
  u8 := oneByte_total _ _
  u32 := varint_total _ _ _ _
  u32Plain := nofun
  u64 := varint_total _ _ _ _
  f64 := fixedF64_total
  bool := oneByte_total _ _
  duration := varint_total _ _ _ _
  str := wholeSlice_total _ _
  bytes := wholeSlice_total _ _
  id := oneByte_total _ _
  node := referenceNode_total
  statusLtime := pair_total _ _ _ (oneByte_total _ _) (varint_total _ _ _ _)
  tag := pair_total _ _ _ (wholeSlice_total _ _) (wholeSlice_total _ _)
  skip _ := skipField_skips
  skipItem := skipField_skips

def guarded : Proto UInt8 UInt8 :=
  { reference with secretKey := secretKeyData (.error .bufferUnderflow) }

theorem guarded_total : ProtoTotal guarded :=
  { reference_total with }

end Reference

end Serf.Wire
