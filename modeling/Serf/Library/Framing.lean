import Serf.Library.Writer

/-!
How a value stands in a message: behind a tag byte that merges its wire type
with the number of its field and, where its wire type asks for it, behind its
length. A reader answers how many bytes it took and what it read; it inverts a
writer if it takes exactly the bytes that were written, whatever stands behind
them.
-/

namespace Serf.Library.Encoding

variable {Error Value Converted : Type}

def WireType.code : WireType → UInt8
  | .byte => 0
  | .varint => 1
  | .lengthDelimited => 2
  | .fixed32 => 3
  | .fixed64 => 4

def merge (wire : WireType) (tag : UInt8) : UInt8 := (wire.code <<< 3) ||| tag

theorem merge_number (wire : WireType) (tag : UInt8) : merge wire tag &&& 7 = tag &&& 7 := by
  have cleared : (wire.code <<< 3).toNat &&& 7 = 0 := by
    cases wire <;> decide
  apply UInt8.toNat_inj.mp
  rw [merge, UInt8.toNat_and, UInt8.toNat_or, UInt8.toNat_and]
  change ((wire.code <<< 3).toNat ||| tag.toNat) &&& 7 = tag.toNat &&& 7
  rw [Nat.and_or_distrib_right, cleared, Nat.zero_or]

theorem merge_ne (wire other : WireType) (tag number : UInt8)
    (different : tag &&& 7 ≠ number &&& 7) : merge wire tag ≠ merge other number := by
  intro same
  apply different
  rw [← merge_number wire tag, same, merge_number]

/-- Why a decoder has no value: it reported an error, it indexed out of bounds,
or its loop did not come back. -/
inductive Fault (Error : Type) where
  | error (reason : Error)
  | panic
  | stuck
  deriving DecidableEq

def Fault.Reported : Fault Error → Prop
  | .error _ => True
  | .panic => False
  | .stuck => False

/-- The decoder came back, with a value or with an error. -/
def Returns : Except (Fault Error) Value → Prop
  | .ok _ => True
  | .error fault => fault.Reported

instance (result : Except (Fault Error) Value) : Decidable (Returns result) :=
  match result with
  | .ok _ => isTrue trivial
  | .error (.error _) => isTrue trivial
  | .error .panic => isFalse id
  | .error .stuck => isFalse id

theorem returns_map {Next : Type} (change : Value → Next) (first : Except (Fault Error) Value) :
    Returns (first.map change) ↔ Returns first := by
  cases first <;> rfl

theorem map_ok {Failure Next : Type} {change : Value → Next} {first : Except Failure Value}
    {result : Next} (mapped : first.map change = .ok result) :
    ∃ value, first = .ok value ∧ change value = result := by
  cases first with
  | error fault => cases mapped
  | ok value =>
    cases mapped
    exact ⟨value, rfl, rfl⟩

theorem bind_ok {Failure Next : Type} {first : Except Failure Value}
    {next : Value → Except Failure Next} {result : Next} (now : first >>= next = .ok result) :
    ∃ value, first = .ok value ∧ next value = .ok result := by
  cases first with
  | error failure => cases now
  | ok value => exact ⟨value, rfl, now⟩

variable {Next : Type} {first : Except (Fault Error) Value}

theorem returns_of_bind {next : Value → Except (Fault Error) Next}
    (back : Returns (first >>= next)) : Returns first := by
  cases first with
  | error fault => exact back
  | ok value => trivial

theorem returns_bind {next : Value → Except (Fault Error) Next} (now : Returns first)
    (later : ∀ value, first = .ok value → Returns (next value)) : Returns (first >>= next) := by
  cases first with
  | error reason => exact now
  | ok value => exact later value rfl

/-- The decoder came back, and a value that it answers is fine. -/
def Ends (fine : Value → Prop) : Except (Fault Error) Value → Prop
  | .ok value => fine value
  | .error fault => fault.Reported

theorem returns_of_ends {fine : Value → Prop} {result : Except (Fault Error) Value}
    (ends : Ends fine result) : Returns result := by
  cases result with
  | error fault => exact ends
  | ok value => trivial

theorem ends_bind {next : Value → Except (Fault Error) Next} {fine : Next → Prop}
    (now : Returns first) (later : ∀ value, first = .ok value → Ends fine (next value)) :
    Ends fine (first >>= next) := by
  cases first with
  | error fault => exact now
  | ok value => exact later value rfl

def reported : Except (Fault Error) Value → Except (Fault Error) (Except Error Value)
  | .ok value => .ok (.ok value)
  | .error (.error reason) => .ok (.error reason)
  | .error fault => .error fault

abbrev Read (Error Value : Type) := Bytes → Except (Fault Error) (Nat × Value)

def owned (read : Read Error (Except (Fault Error) Value)) : Read Error Value := fun bytes =>
  match read bytes with
  | .error reason => .error reason
  | .ok (_, .error reason) => .error reason
  | .ok (taken, .ok value) => .ok (taken, value)

theorem decodeOwned_eq (codec : Codec (Fault Error) Value) :
    codec.decodeOwned = owned codec.decode := by
  funext bytes
  unfold Codec.decodeOwned owned
  split <;> simp_all

def mapRead (change : Value → Converted) (read : Read Error Value) : Read Error Converted :=
  fun bytes => (read bytes).map fun (taken, value) => (taken, change value)

def Inverts (writer : Writer) (read : Read Error Value) (wanted : Value → Prop) : Prop :=
  ∀ bytes, writer.Makes bytes →
    ∃ value, wanted value ∧ ∀ more, read (bytes ++ more) = .ok (bytes.length, value)

def Yields (wanted : Value → Prop) (converted : Except (Fault Error) Value) : Prop :=
  ∃ value, converted = .ok value ∧ wanted value

theorem inverts_owned {writer : Writer} {read : Read Error (Except (Fault Error) Value)}
    {wanted : Value → Prop} (inverts : Inverts writer read (Yields wanted)) :
    Inverts writer (owned read) wanted := by
  intro bytes made
  obtain ⟨_, ⟨value, rfl, good⟩, reads⟩ := inverts bytes made
  refine ⟨value, good, ?_⟩
  intro more
  rw [owned, reads more]

theorem inverts_mapRead (change : Value → Converted) {writer : Writer} {read : Read Error Value}
    {wanted : Value → Prop} (inverts : Inverts writer read wanted) :
    Inverts writer (mapRead change read) fun converted =>
      ∃ value, converted = change value ∧ wanted value := by
  intro bytes made
  obtain ⟨value, good, reads⟩ := inverts bytes made
  refine ⟨change value, ⟨value, rfl, good⟩, ?_⟩
  intro more
  rw [mapRead, reads more]
  rfl

/-- The codec writes what it announces, into any slice with `slack` bytes to
spare, and reads back a value that is the same as the one written. One that is
not length-delimited finds the end of its value by itself. -/
structure Lawful (codec : Codec (Fault Error) Value) (good : Value → Prop)
    (same : Value → Value → Prop) (slack : Nat) : Prop where
  fits : ∀ value, good value → codec.encodedLen value ≤ maxLen →
    (Writer.ofCodec codec value).Fits (codec.encodedLen value) slack
  reads : ∀ value, good value → codec.encodedLen value ≤ maxLen →
    ∀ bytes, (Writer.ofCodec codec value).Makes bytes →
      ∃ result, same value result ∧
        ∀ more, (codec.wireType = .lengthDelimited → more = []) →
          codec.decode (bytes ++ more) = .ok (bytes.length, .ok result)

variable {codec : Codec (Fault Error) Value} {good : Value → Prop} {same : Value → Value → Prop}

theorem Lawful.encodeToBytes (laws : Lawful codec good same 0) (value : Value) (valid : good value)
    (small : codec.encodedLen value ≤ maxLen) :
    ∃ bytes result, codec.encodeToBytes value = .ok bytes ∧
      bytes.length = codec.encodedLen value ∧ same value result ∧
      codec.decodeOwned bytes = .ok (bytes.length, result) := by
  have fits := laws.fits value valid small
  obtain ⟨bytes, written⟩ := fits.writes (codec.encodedLen value) le_rfl
  have length : bytes.length = codec.encodedLen value := fits.exact bytes ⟨_, written⟩
  obtain ⟨result, alike, reads⟩ := laws.reads value valid small bytes ⟨_, written⟩
  have decoded := reads [] (fun _ => rfl)
  rw [List.append_nil] at decoded
  have encoded : codec.encode value (codec.encodedLen value) = .ok bytes := written
  refine ⟨bytes, result, ?_, length, alike, by rw [Codec.decodeOwned, decoded]⟩
  simp [Codec.encodeToBytes, encoded, length, Except.map]

def Encodes (codec : Codec (Fault Error) Value) (good : Value → Prop) (slack : Nat) : Prop :=
  ∀ value, good value → codec.encodedLen value ≤ maxLen →
    (Writer.ofCodec codec value).Fits (codec.encodedLen value) slack

structure Plain (codec : Codec (Fault Error) Value) (good : Value → Prop) : Prop
    extends Lawful codec good Eq 0 where
  plain : codec.wireType ≠ .lengthDelimited

theorem plain_inverts (laws : Plain codec good) (value : Value) (valid : good value)
    (small : codec.encodedLen value ≤ maxLen) :
    Inverts (Writer.ofCodec codec value) codec.decodeOwned (value = ·) := by
  intro bytes made
  obtain ⟨result, rfl, decoded⟩ := laws.reads value valid small bytes made
  refine ⟨value, rfl, ?_⟩
  intro more
  rw [Codec.decodeOwned, decoded more fun delimited => absurd delimited laws.plain]

/-- The codec of a message: a writer, which is told the length of the slice for
its error reports, and a decoder of the whole slice. -/
def ofWriter (encodedLen : Value → Nat) (writer : Value → (room : Nat) → Writer)
    (decode : Read Error (Except (Fault Error) Value)) : Codec (Fault Error) Value where
  wireType := .lengthDelimited
  encodedLen := encodedLen
  encode value room := (writer value room).write room
  decode := decode
  bounded value room := (writer value room).bounded room

variable {writer : Value → Nat → Writer} {decode : Read Error (Except (Fault Error) Value)}
  {value : Value} {slack : Nat}

theorem fits_ofWriter {encodedLen : Value → Nat}
    (fits : ∀ room, (writer value room).Fits (encodedLen value) slack) :
    (Writer.ofCodec (ofWriter encodedLen writer decode) value).Fits (encodedLen value) slack := by
  constructor
  · rintro bytes ⟨room, written⟩
    exact (fits room).exact bytes ⟨room, written⟩
  · intro room enough
    exact (fits room).writes room enough

theorem encodes_ofWriter {encodedLen : Value → Nat}
    (fits : ∀ value, good value → encodedLen value ≤ maxLen → ∀ room,
      (writer value room).Fits (encodedLen value) slack) :
    Encodes (ofWriter encodedLen writer decode) good slack :=
  fun value valid small => fits_ofWriter (fits value valid small)

theorem lawful_ofWriter {encodedLen : Value → Nat}
    (encodes : Encodes (ofWriter encodedLen writer decode) good slack)
    (reads : ∀ value, good value → encodedLen value ≤ maxLen → ∀ room bytes,
      (writer value room).Makes bytes →
        ∃ result, same value result ∧ decode bytes = .ok (bytes.length, .ok result)) :
    Lawful (ofWriter encodedLen writer decode) good same slack := by
  refine ⟨encodes, ?_⟩
  rintro value valid small bytes ⟨room, written⟩
  obtain ⟨result, equal, decoded⟩ := reads value valid small room bytes ⟨room, written⟩
  refine ⟨result, equal, ?_⟩
  intro more delimited
  rw [delimited rfl, List.append_nil]
  exact decoded

section Frames

section Delimited

variable (u32 : Codec (Fault Error) UInt32) (codec : Codec (Fault Error) Value)

def delimitedLen (value : Value) : Nat :=
  u32.encodedLen (UInt32.ofNat (codec.encodedLen value)) + codec.encodedLen value

def delimited (value : Value) : Writer :=
  Writer.checking (fun _ => if maxLen < codec.encodedLen value then some .tooLarge else none)
    ((Writer.ofCodec u32 (UInt32.ofNat (codec.encodedLen value))).andThen
      (Writer.ofCodec codec value))

def decodeDelimited {Found : Type} (underflow : Error) (decode : Read Error Found) :
    Read Error Found := fun bytes =>
  match u32.decodeOwned bytes with
  | .error reason => .error reason
  | .ok (read, length) =>
    if bytes.length < read + length.toNat then
      .error (.error underflow)
    else
      -- The value sees its own slice and nothing behind it.
      (decode ((bytes.drop read).take length.toNat)).map fun (taken, found) =>
        (read + taken, found)

end Delimited

/-- The framing of a protocol: its own functions, and what they compute. A value
of a wire type that asks for it stands behind its length, any other as it is;
an error that reports the lack of room is given the numbers of the outer
buffer. -/
structure Framing (Error : Type) where
  u32 : Codec (Fault Error) UInt32
  underflow : Error
  /-- `encoded_len_with_length_delimited` -/
  framedLen : {Value : Type} → Codec (Fault Error) Value → Value → Nat
  /-- `encode_length_delimited` -/
  framed : {Value : Type} → Codec (Fault Error) Value → Value → Writer
  /-- `decode_length_delimited` -/
  decodeFramed : {Found : Type} → WireType → Read Error Found → Read Error Found
  /-- `EncodeError::update` -/
  update : (required remaining : Nat) → EncodeError → EncodeError
  framedLen_eq : ∀ {Value : Type} (codec : Codec (Fault Error) Value) (value : Value),
    framedLen codec value =
      if codec.wireType = .lengthDelimited then delimitedLen u32 codec value
      else codec.encodedLen value
  framed_eq : ∀ {Value : Type} (codec : Codec (Fault Error) Value) (value : Value),
    framed codec value =
      if codec.wireType = .lengthDelimited then delimited u32 codec value
      else Writer.ofCodec codec value
  decodeFramed_eq : ∀ {Found : Type} (wire : WireType) (decode : Read Error Found),
    decodeFramed wire decode =
      if wire = .lengthDelimited then decodeDelimited u32 underflow decode else decode
  update_short : ∀ required remaining needed left,
    update required remaining (.insufficientBuffer needed left) =
      .insufficientBuffer required remaining
  update_other : ∀ required remaining reason, ¬ EncodeError.Insufficient reason →
    update required remaining reason = reason

def Framing.ofU32 (u32 : Codec (Fault Error) UInt32) (underflow : Error) : Framing Error where
  u32 := u32
  underflow := underflow
  framedLen codec value :=
    if codec.wireType = .lengthDelimited then delimitedLen u32 codec value
    else codec.encodedLen value
  framed codec value :=
    if codec.wireType = .lengthDelimited then delimited u32 codec value
    else Writer.ofCodec codec value
  decodeFramed wire decode :=
    if wire = .lengthDelimited then decodeDelimited u32 underflow decode else decode
  update required remaining
    | .insufficientBuffer _ _ => .insufficientBuffer required remaining
    | other => other
  framedLen_eq _ _ := rfl
  framed_eq _ _ := rfl
  decodeFramed_eq _ _ := rfl
  update_short _ _ _ _ := rfl
  update_other required remaining reason other := by
    cases reason with
    | insufficientBuffer needed left => exact absurd ⟨needed, left, rfl⟩ other
    | tooLarge | custom | outOfBounds => rfl

variable (framing : Framing Error) (codec : Codec (Fault Error) Value)

abbrev Framing.read : Read Error (Except (Fault Error) Value) :=
  framing.decodeFramed codec.wireType codec.decode

theorem Framing.update_insufficient (required remaining : Nat) (reason : EncodeError)
    (lacks : reason.Insufficient) : (framing.update required remaining reason).Insufficient := by
  obtain ⟨needed, left, rfl⟩ := lacks
  exact ⟨required, remaining, framing.update_short required remaining needed left⟩

variable {codec}

variable {Found : Type} {wire : WireType}

theorem Framing.decodeFramed_delimited (delimited : wire = .lengthDelimited)
    (decode : Read Error Found) :
    framing.decodeFramed wire decode = decodeDelimited framing.u32 framing.underflow decode := by
  rw [framing.decodeFramed_eq, if_pos delimited]

theorem Framing.decodeFramed_plain (plain : wire ≠ .lengthDelimited) (decode : Read Error Found) :
    framing.decodeFramed wire decode = decode := by
  rw [framing.decodeFramed_eq, if_neg plain]

theorem Framing.read_plain (plain : codec.wireType ≠ .lengthDelimited) :
    framing.read codec = codec.decode :=
  framing.decodeFramed_plain plain codec.decode

theorem Framing.framed_plain (plain : codec.wireType ≠ .lengthDelimited) (value : Value) :
    framing.framed codec value = Writer.ofCodec codec value := by
  rw [framing.framed_eq, if_neg plain]

theorem Framing.framed_delimited (delimits : codec.wireType = .lengthDelimited) (value : Value) :
    framing.framed codec value = delimited framing.u32 codec value := by
  rw [framing.framed_eq, if_pos delimits]

theorem Framing.framedLen_delimited (delimits : codec.wireType = .lengthDelimited)
    (value : Value) : framing.framedLen codec value = delimitedLen framing.u32 codec value := by
  rw [framing.framedLen_eq, if_pos delimits]

theorem Framing.framedLen_plain (plain : codec.wireType ≠ .lengthDelimited) (value : Value) :
    framing.framedLen codec value = codec.encodedLen value := by
  rw [framing.framedLen_eq, if_neg plain]

theorem decodeDelimited_mapRead (u32 : Codec (Fault Error) UInt32) (underflow : Error)
    (change : Found → Converted) (decode : Read Error Found) :
    decodeDelimited u32 underflow (mapRead change decode) =
      mapRead change (decodeDelimited u32 underflow decode) := by
  funext bytes
  simp only [decodeDelimited, mapRead]
  cases u32.decodeOwned bytes with
  | error fault => rfl
  | ok result =>
    obtain ⟨read, length⟩ := result
    dsimp only
    split
    · rfl
    · cases decode ((bytes.drop read).take length.toNat) with
      | error fault => rfl
      | ok found => rfl

theorem Framing.decodeFramed_mapRead (wire : WireType) (change : Found → Converted)
    (decode : Read Error Found) :
    framing.decodeFramed wire (mapRead change decode) =
      mapRead change (framing.decodeFramed wire decode) := by
  rw [framing.decodeFramed_eq, framing.decodeFramed_eq]
  split
  · exact decodeDelimited_mapRead _ _ change decode
  · rfl

structure LengthPrefix (u32 : Codec (Fault Error) UInt32) : Prop
    extends Plain u32 fun _ => True where
  short : ∀ length, u32.encodedLen length ≤ maxLen

theorem framed_small (value : Value) (small : framing.framedLen codec value ≤ maxLen) :
    codec.encodedLen value ≤ maxLen := by
  rw [framing.framedLen_eq] at small
  unfold delimitedLen at small
  split at small <;> omega

variable {framing}

theorem toNat_length (length : Nat) (small : length ≤ maxLen) :
    (UInt32.ofNat length).toNat = length := by
  rw [UInt32.toNat_ofNat']
  unfold maxLen at small
  omega

theorem LengthPrefix.encodes {u32 : Codec (Fault Error) UInt32} (lengths : LengthPrefix u32)
    (length : UInt32) : (Writer.ofCodec u32 length).Fits (u32.encodedLen length) 0 :=
  lengths.fits length trivial (lengths.short length)

theorem length_nonempty {u32 : Codec (Fault Error) UInt32} (lengths : LengthPrefix u32)
    (length : UInt32) (front : Bytes) (made : (Writer.ofCodec u32 length).Makes front) :
    front ≠ [] := by
  rintro rfl
  have short := lengths.short
  obtain ⟨bytes, written⟩ := (lengths.encodes (length + 1)).writes _ le_rfl
  obtain ⟨_, rfl, reads⟩ := plain_inverts lengths.toPlain length trivial (short _) [] made
  obtain ⟨_, rfl, again⟩ := plain_inverts lengths.toPlain (length + 1) trivial (short _) bytes
    ⟨_, written⟩
  have first := reads bytes
  have second := again []
  rw [List.append_nil] at second
  rw [List.nil_append, second] at first
  simp at first

theorem length_reads {u32 : Codec (Fault Error) UInt32} (lengths : LengthPrefix u32) (length : Nat)
    (front : Bytes) (made : (Writer.ofCodec u32 (UInt32.ofNat length)).Makes front) (more : Bytes) :
    u32.decodeOwned (front ++ more) = .ok (front.length, UInt32.ofNat length) := by
  obtain ⟨value, rfl, reads⟩ := plain_inverts lengths.toPlain (UInt32.ofNat length) trivial
    (lengths.short _) front made
  exact reads more

variable {good : Value → Prop} {same : Value → Value → Prop} {slack : Nat}

theorem fits_frame (lengths : ∀ length,
      (Writer.ofCodec framing.u32 length).Fits (framing.u32.encodedLen length) 0)
    (value : Value) (body : (Writer.ofCodec codec value).Fits (codec.encodedLen value) slack)
    (small : codec.encodedLen value ≤ maxLen) :
    (framing.framed codec value).Fits (framing.framedLen codec value) slack := by
  rw [framing.framed_eq, framing.framedLen_eq]
  split
  · have front := lengths (UInt32.ofNat (codec.encodedLen value))
    have both := Writer.fits_andThen _ _ _ _ 0 slack front body (Nat.zero_le _)
    refine Writer.fits_checking _ _ _ slack ?_ both
    intro room enough
    exact if_neg (Nat.not_lt.mpr small)
  · exact body

theorem framed_made_small (delimits : codec.wireType = .lengthDelimited) (value : Value)
    (bytes : Bytes) (made : (framing.framed codec value).Makes bytes) :
    codec.encodedLen value ≤ maxLen := by
  rw [framing.framed_delimited delimits] at made
  obtain ⟨room, passed, _⟩ := Writer.makes_checking _ _ bytes made
  by_contra large
  rw [if_pos (lt_of_not_ge large)] at passed
  cases passed

theorem makes_framed (delimits : codec.wireType = .lengthDelimited) (value : Value)
    (exact : (Writer.ofCodec codec value).Fits (codec.encodedLen value) slack) (bytes : Bytes)
    (made : (framing.framed codec value).Makes bytes) :
    ∃ front body, bytes = front ++ body ∧ body.length ≤ maxLen ∧
      (Writer.ofCodec framing.u32 (UInt32.ofNat body.length)).Makes front ∧
      (Writer.ofCodec codec value).Makes body := by
  have small := framed_made_small delimits value bytes made
  rw [framing.framed_delimited delimits] at made
  obtain ⟨room, _, written⟩ := Writer.makes_checking _ _ bytes made
  obtain ⟨front, body, rfl, head, tail⟩ := Writer.makes_andThen _ _ bytes ⟨room, written⟩
  have length := exact.exact body tail
  rw [← length] at head small
  exact ⟨front, body, rfl, small, head, tail⟩

theorem decodeFramed_body (lengths : LengthPrefix framing.u32) (delimits : wire = .lengthDelimited)
    (front body more : Bytes) (small : body.length ≤ maxLen)
    (made : (Writer.ofCodec framing.u32 (UInt32.ofNat body.length)).Makes front)
    (decode : Read Error Found) :
    framing.decodeFramed wire decode (front ++ body ++ more) =
      (decode body).map fun (taken, found) => (front.length + taken, found) := by
  have enough : ¬ (front ++ body ++ more).length < front.length + body.length := by
    simp only [List.length_append]
    omega
  have slice : ((front ++ body ++ more).drop front.length).take body.length = body := by
    rw [List.append_assoc, List.drop_left, List.take_left]
  have length := length_reads lengths body.length front made (body ++ more)
  rw [← List.append_assoc] at length
  rw [framing.decodeFramed_delimited delimits]
  simp only [decodeDelimited, length, toNat_length _ small, if_neg enough, slice]

theorem decodeFramed_frame (lengths : LengthPrefix framing.u32) (delimits : wire = .lengthDelimited)
    (front body more : Bytes) (small : body.length ≤ maxLen)
    (made : (Writer.ofCodec framing.u32 (UInt32.ofNat body.length)).Makes front)
    {decode : Read Error Found} (taken : Nat) (found : Found)
    (decoded : decode body = .ok (taken, found)) :
    framing.decodeFramed wire decode (front ++ body ++ more) =
      .ok (front.length + taken, found) := by
  rw [decodeFramed_body lengths delimits front body more small made, decoded]
  rfl

theorem delimited_inverts (lengths : LengthPrefix framing.u32) (reading : wire = .lengthDelimited)
    (delimits : codec.wireType = .lengthDelimited) (value : Value)
    (fits : (Writer.ofCodec codec value).Fits (codec.encodedLen value) slack)
    {decode : Read Error Found} {wanted : Found → Prop}
    (reads : ∀ body, (Writer.ofCodec codec value).Makes body →
      ∃ found, wanted found ∧ decode body = .ok (body.length, found)) :
    Inverts (framing.framed codec value) (framing.decodeFramed wire decode) wanted := by
  intro bytes made
  obtain ⟨front, body, rfl, small, head, tail⟩ := makes_framed delimits value fits bytes made
  obtain ⟨found, good, decoded⟩ := reads body tail
  refine ⟨found, good, ?_⟩
  intro more
  rw [List.length_append]
  exact decodeFramed_frame lengths reading front body more small head _ _ decoded

theorem framed_inverts (lengths : LengthPrefix framing.u32) (laws : Lawful codec good same slack)
    (value : Value) (valid : good value) (small : codec.encodedLen value ≤ maxLen) :
    Inverts (framing.framed codec value) (framing.read codec) (Yields (same value)) := by
  by_cases delimits : codec.wireType = .lengthDelimited
  · refine delimited_inverts lengths delimits delimits value (laws.fits value valid small) ?_
    intro body made
    obtain ⟨result, equal, decoded⟩ := laws.reads value valid small body made
    have whole := decoded [] fun _ => rfl
    rw [List.append_nil] at whole
    exact ⟨.ok result, ⟨result, rfl, equal⟩, whole⟩
  · -- Without a length the codec itself stops where its value ends.
    intro bytes made
    rw [framing.framed_plain delimits] at made
    obtain ⟨result, equal, decoded⟩ := laws.reads value valid small bytes made
    refine ⟨.ok result, ⟨result, rfl, equal⟩, ?_⟩
    intro more
    rw [framing.read_plain delimits]
    exact decoded more fun is => absurd is delimits

theorem raw_inverts (lengths : LengthPrefix framing.u32)
    (delimits : codec.wireType = .lengthDelimited) (full : EncodeError) (body : Bytes)
    (small : body.length ≤ maxLen) (value : Value)
    (decoded : codec.decode body = .ok (body.length, .ok value)) :
    Inverts
      (Writer.all [Writer.ofCodec framing.u32 (UInt32.ofNat body.length), Writer.raw full body])
      (framing.read codec) (Yields (value = ·)) := by
  intro bytes made
  obtain ⟨front, back, rfl, head, tail⟩ := Writer.makes_cons made
  have copied := Writer.makes_raw full body back (Writer.makes_last tail)
  subst copied
  refine ⟨.ok value, ⟨value, rfl, rfl⟩, ?_⟩
  intro more
  rw [List.length_append]
  exact decodeFramed_frame lengths delimits front back more small head _ _ decoded

end Frames

section Total

def Takes (read : Read Error Value) (least : Nat) (fine : Value → Prop) : Prop :=
  ∀ bytes taken value, read bytes = .ok (taken, value) →
    least ≤ taken ∧ taken ≤ bytes.length ∧ fine value

structure Total (read : Read Error Value) (least : Nat) (fine : Value → Prop) : Prop where
  takes : Takes read least fine
  returns : ∀ bytes, Returns (read bytes)

/-- Decoding any bytes comes back, and so does the conversion. Only an empty
length-delimited value takes no byte of its own. -/
abbrev TotalCodec (codec : Codec (Fault Error) Value) : Prop :=
  Total codec.decode (if codec.wireType = .lengthDelimited then 0 else 1) Returns

variable {least : Nat} {fine : Value → Prop}

theorem takes_least {read : Read Error Value} (takes : Takes read least fine) : Takes read 0 fine :=
  fun bytes taken value now => ⟨Nat.zero_le _, (takes bytes taken value now).2⟩

theorem takes_owned {read : Read Error (Except (Fault Error) Value)}
    {fine : Except (Fault Error) Value → Prop} (takes : Takes read least fine) :
    Takes (owned read) least fun _ => True := by
  intro bytes taken value now
  unfold owned at now
  split at now
  · cases now
  · cases now
  · rename_i reads
    cases now
    have inside := takes bytes _ _ reads
    exact ⟨inside.1, inside.2.1, trivial⟩

theorem total_owned {read : Read Error (Except (Fault Error) Value)}
    (total : Total read least Returns) : Total (owned read) least fun _ => True := by
  refine ⟨takes_owned total.takes, ?_⟩
  intro bytes
  have now := total.returns bytes
  unfold owned
  split
  · rename_i failed
    rw [failed] at now
    exact now
  · rename_i reads
    exact (total.takes bytes _ _ reads).2.2
  · trivial

section

variable {change : Value → Converted} {read : Read Error Value} {least : Nat}
  {fine : Value → Prop} (next : Converted → Prop)

theorem takes_mapRead (takes : Takes read least fine)
    (keeps : ∀ value, fine value → next (change value)) :
    Takes (mapRead change read) least next := by
  intro bytes taken converted now
  obtain ⟨⟨inner, value⟩, reads, equal⟩ := map_ok now
  cases equal
  have inside := takes bytes _ value reads
  exact ⟨inside.1, inside.2.1, keeps value inside.2.2⟩

theorem total_mapRead (total : Total read least fine)
    (keeps : ∀ value, fine value → next (change value)) :
    Total (mapRead change read) least next :=
  ⟨takes_mapRead next total.takes keeps, fun bytes => (returns_map _ _).mpr (total.returns bytes)⟩

end

theorem ends_of_takes {read : Read Error Value} {bytes : Bytes} (takes : Takes read least fine)
    (back : Returns (read bytes)) : Ends (fun result => fine result.2) (read bytes) := by
  cases now : read bytes with
  | error fault =>
    rw [now] at back
    exact back
  | ok result => exact (takes bytes result.1 result.2 now).2.2

theorem takes_of_ends {decode : Read Error Value}
    (ends : ∀ bytes, Returns (decode bytes) →
      Ends (fun result => result.1 ≤ bytes.length ∧ fine result.2) (decode bytes)) :
    Takes decode 0 fine := by
  intro bytes taken value now
  have held := ends bytes
  rw [now] at held
  exact ⟨Nat.zero_le taken, held trivial⟩

theorem total_of_ends {decode : Read Error Value}
    (ends : ∀ bytes, Ends (fun result => result.1 ≤ bytes.length ∧ fine result.2)
      (decode bytes)) : Total decode 0 fine :=
  ⟨takes_of_ends fun bytes _ => ends bytes, fun bytes => returns_of_ends (ends bytes)⟩

variable {framing : Framing Error}

def Announces (u32 : Codec (Fault Error) UInt32) (bytes slice : Bytes) : Prop :=
  ∃ read length, u32.decodeOwned bytes = .ok (read, length) ∧
    read + length.toNat ≤ bytes.length ∧ slice = (bytes.drop read).take length.toNat

theorem takes_framed {Found : Type} {wire : WireType} {decode : Read Error Found}
    {fine : Found → Prop} (lengths : Takes framing.u32.decodeOwned 1 fun _ => True)
    (takes : Takes decode (if wire = .lengthDelimited then 0 else 1) fine) :
    Takes (framing.decodeFramed wire decode) 1 fine := by
  intro bytes taken value now
  by_cases delimits : wire = .lengthDelimited
  · rw [if_pos delimits] at takes
    rw [framing.decodeFramed_delimited delimits, decodeDelimited] at now
    split at now
    · cases now
    · rename_i read length front
      split at now
      · cases now
      · rename_i enough
        obtain ⟨⟨inner, held⟩, decoded, equal⟩ := map_ok now
        cases equal
        have before := lengths bytes read length front
        have inside := takes _ _ _ decoded
        rw [List.length_take, List.length_drop] at inside
        exact ⟨by omega, by omega, inside.2.2⟩
  · rw [if_neg delimits] at takes
    rw [framing.decodeFramed_plain delimits] at now
    exact takes bytes taken value now

theorem framed_returns_iff {Found : Type} {wire : WireType} {decode : Read Error Found}
    (lengths : ∀ bytes, Returns (framing.u32.decodeOwned bytes))
    (delimits : wire = .lengthDelimited) (bytes : Bytes) :
    Returns (framing.decodeFramed wire decode bytes) ↔
      ∀ slice, Announces framing.u32 bytes slice → Returns (decode slice) := by
  have front := lengths bytes
  rw [framing.decodeFramed_delimited delimits, decodeDelimited]
  split
  · -- No length could be read, so no slice is announced.
    rename_i reason failed
    rw [failed] at front
    constructor
    · rintro _ slice ⟨read, length, announced, _⟩
      rw [failed] at announced
      cases announced
    · intro _
      exact front
  · rename_i read length announced
    split
    · -- The slice that is announced is not there.
      rename_i short
      constructor
      · rintro _ slice ⟨other, size, again, enough, _⟩
        rw [announced] at again
        cases again
        omega
      · intro _
        trivial
    · rename_i enough
      rw [returns_map]
      constructor
      · rintro back slice ⟨other, size, again, _, rfl⟩
        rw [announced] at again
        cases again
        exact back
      · intro all
        exact all _ ⟨read, length, announced, by omega, rfl⟩

theorem total_framed {Found : Type} {wire : WireType} {decode : Read Error Found}
    {fine : Found → Prop} (lengths : Total framing.u32.decodeOwned 1 fun _ => True)
    (total : Total decode (if wire = .lengthDelimited then 0 else 1) fine) :
    Total (framing.decodeFramed wire decode) 1 fine := by
  refine ⟨takes_framed lengths.takes total.takes, ?_⟩
  intro bytes
  by_cases delimits : wire = .lengthDelimited
  · rw [framed_returns_iff lengths.returns delimits]
    intro slice _
    exact total.returns slice
  · rw [framing.decodeFramed_plain delimits]
    exact total.returns bytes

end Total

end Serf.Library.Encoding
