import Serf.Library.Encoding

/-!
Writers: what an encoder does to the part of a slice that is left to it. A
writer either reports an error or fills a front of the slice. Two facts about a
writer matter to a codec that is put together from writers: which bytes it can
make, and how long they are in a slice that has room for them. A writer that reports
nothing but the lack of room refuses every slice that is too short.
-/

namespace Serf.Library.Encoding

structure Writer where
  write : (room : Nat) → Except EncodeError Bytes
  bounded : ∀ room bytes, write room = .ok bytes → bytes.length ≤ room

namespace Writer

def nothing : Writer where
  write _ := .ok []
  bounded := by
    rintro room bytes ⟨⟩
    exact Nat.zero_le room

/-- One byte; `full` is reported where there is no room for it. -/
def byte (full : EncodeError) (value : UInt8) : Writer where
  write room := if room = 0 then .error full else .ok [value]
  bounded := by
    intro room bytes written
    split at written
    · cases written
    · cases written
      exact Nat.one_le_iff_ne_zero.mpr ‹_›

/-- Bytes copied as they are; `full` is reported where they do not fit. -/
def raw (full : EncodeError) (bytes : Bytes) : Writer where
  write room := if room < bytes.length then .error full else .ok bytes
  bounded := by
    intro room written made
    split at made
    · cases made
    · cases made
      omega

def andThen (first second : Writer) : Writer where
  write room :=
    match first.write room with
    | .error reason => .error reason
    | .ok front =>
      match second.write (room - front.length) with
      | .error reason => .error reason
      | .ok back => .ok (front ++ back)
  bounded := by
    intro room bytes written
    split at written
    · cases written
    · rename_i front head
      split at written
      · cases written
      · rename_i back tail
        cases written
        have before := first.bounded room front head
        have after := second.bounded _ back tail
        rw [List.length_append]
        omega

def all : List Writer → Writer
  | [] => nothing
  | first :: rest => first.andThen (all rest)

def onlyIf (present : Bool) (writer : Writer) : Writer :=
  if present then writer else nothing

def optional {Item : Type} (writer : Item → Writer) : Option Item → Writer
  | some item => writer item
  | none => nothing

def checking (check : (room : Nat) → Option EncodeError) (writer : Writer) : Writer where
  write room :=
    match check room with
    | some reason => .error reason
    | none => writer.write room
  bounded := by
    intro room bytes written
    split at written
    · cases written
    · exact writer.bounded room bytes written

def mapErr (change : EncodeError → EncodeError) (writer : Writer) : Writer where
  write room :=
    match writer.write room with
    | .error reason => .error (change reason)
    | .ok bytes => .ok bytes
  bounded := by
    intro room bytes written
    split at written
    · cases written
    · cases written
      exact writer.bounded room _ ‹_›

def ofCodec {Error Value : Type} (codec : Codec Error Value) (value : Value) : Writer where
  write := codec.encode value
  bounded := codec.bounded value

/-- A tag byte and what stands behind it. -/
def field (full : EncodeError) (tag : UInt8) (body : Writer) : Writer :=
  (byte full tag).andThen body

section Slices

variable (first second : Writer) (room : Nat) (bytes : Bytes)

theorem byte_ok_iff (full : EncodeError) (value : UInt8) :
    (byte full value).write room = .ok bytes ↔ room ≠ 0 ∧ bytes = [value] := by
  simp only [byte]
  split
  · rename_i empty
    simp [empty]
  · rename_i some
    simp [some, eq_comm]

theorem raw_ok_iff (full : EncodeError) (value : Bytes) :
    (raw full value).write room = .ok bytes ↔ value.length ≤ room ∧ bytes = value := by
  simp only [raw]
  split
  · rename_i short
    exact iff_of_false nofun fun fits => Nat.not_le.mpr short fits.1
  · rename_i enough
    simp [Nat.not_lt.mp enough, eq_comm]

theorem andThen_ok_iff :
    (first.andThen second).write room = .ok bytes ↔
      ∃ front back, bytes = front ++ back ∧ first.write room = .ok front ∧
        second.write (room - front.length) = .ok back := by
  cases head : first.write room with
  | error reason => simp [andThen, head]
  | ok front =>
    cases tail : second.write (room - front.length) with
    | error reason => simp [andThen, head, tail]
    | ok back => simp [andThen, head, tail, eq_comm]

theorem field_ok_iff (full : EncodeError) (tag : UInt8) (body : Writer) :
    (field full tag body).write room = .ok bytes ↔
      ∃ content, bytes = tag :: content ∧ room ≠ 0 ∧ body.write (room - 1) = .ok content := by
  rw [field, andThen_ok_iff]
  constructor
  · rintro ⟨front, content, rfl, head, tail⟩
    obtain ⟨some, rfl⟩ := (byte_ok_iff room front full tag).mp head
    exact ⟨content, rfl, some, tail⟩
  · rintro ⟨content, rfl, some, tail⟩
    exact ⟨[tag], content, rfl, (byte_ok_iff room _ full tag).mpr ⟨some, rfl⟩, tail⟩

theorem checking_ok_iff (check : Nat → Option EncodeError) (writer : Writer) :
    (checking check writer).write room = .ok bytes ↔
      check room = none ∧ writer.write room = .ok bytes := by
  cases made : check room with
  | none => simp [checking, made]
  | some reason => simp [checking, made]

theorem mapErr_ok_iff (change : EncodeError → EncodeError) (writer : Writer) :
    (mapErr change writer).write room = .ok bytes ↔ writer.write room = .ok bytes := by
  cases made : writer.write room with
  | error reason => simp [mapErr, made]
  | ok written => simp [mapErr, made]

end Slices

/-- The bytes are what the writer makes of some slice. -/
def Makes (writer : Writer) (bytes : Bytes) : Prop :=
  ∃ room, writer.write room = .ok bytes

theorem makes_nothing (bytes : Bytes) (made : nothing.Makes bytes) : bytes = [] := by
  obtain ⟨room, written⟩ := made
  cases written
  rfl

theorem makes_byte (full : EncodeError) (value : UInt8) (bytes : Bytes)
    (made : (byte full value).Makes bytes) : bytes = [value] := by
  obtain ⟨room, written⟩ := made
  exact ((byte_ok_iff room bytes full value).mp written).2

theorem makes_raw (full : EncodeError) (value bytes : Bytes)
    (made : (raw full value).Makes bytes) : bytes = value := by
  obtain ⟨room, written⟩ := made
  exact ((raw_ok_iff room bytes full value).mp written).2

theorem makes_andThen (first second : Writer) (bytes : Bytes)
    (made : (first.andThen second).Makes bytes) :
    ∃ front back, bytes = front ++ back ∧ first.Makes front ∧ second.Makes back := by
  obtain ⟨room, written⟩ := made
  obtain ⟨front, back, parts, head, tail⟩ := (andThen_ok_iff first second room bytes).mp written
  exact ⟨front, back, parts, ⟨room, head⟩, ⟨_, tail⟩⟩

theorem makes_cons {first : Writer} {rest : List Writer} {bytes : Bytes}
    (made : (all (first :: rest)).Makes bytes) :
    ∃ front back, bytes = front ++ back ∧ first.Makes front ∧ (all rest).Makes back :=
  makes_andThen first (all rest) bytes made

theorem makes_last {last : Writer} {bytes : Bytes} (made : (all [last]).Makes bytes) :
    last.Makes bytes := by
  obtain ⟨front, back, rfl, head, tail⟩ := makes_andThen last nothing bytes made
  rw [makes_nothing back tail, List.append_nil]
  exact head

theorem makes_field {full : EncodeError} {tag : UInt8} {body : Writer} {bytes : Bytes}
    (made : (field full tag body).Makes bytes) :
    ∃ content, bytes = tag :: content ∧ body.Makes content := by
  obtain ⟨room, written⟩ := made
  obtain ⟨content, parts, _, inside⟩ := (field_ok_iff room bytes full tag body).mp written
  exact ⟨content, parts, _, inside⟩

theorem makes_checking (check : Nat → Option EncodeError) (writer : Writer) (bytes : Bytes)
    (made : (checking check writer).Makes bytes) :
    ∃ room, check room = none ∧ writer.write room = .ok bytes := by
  obtain ⟨room, written⟩ := made
  exact ⟨room, (checking_ok_iff room bytes check writer).mp written⟩

variable {writer : Writer} {bytes : Bytes}

theorem makes_mapErr {change : EncodeError → EncodeError}
    (made : (mapErr change writer).Makes bytes) : writer.Makes bytes := by
  obtain ⟨room, written⟩ := made
  exact ⟨room, (mapErr_ok_iff room bytes change writer).mp written⟩

/-- The writer makes `length` bytes, and does so in any slice with room for
them and for `slack` bytes more. -/
structure Fits (writer : Writer) (length slack : Nat) : Prop where
  exact : ∀ bytes, writer.Makes bytes → bytes.length = length
  writes : ∀ room, length + slack ≤ room → ∃ bytes, writer.write room = .ok bytes

theorem fits_nothing (slack : Nat) : nothing.Fits 0 slack := by
  constructor
  · intro bytes made
    rw [makes_nothing bytes made, List.length_nil]
  · intro room _
    exact ⟨[], rfl⟩

theorem fits_byte (full : EncodeError) (value : UInt8) : (byte full value).Fits 1 0 := by
  constructor
  · intro bytes made
    rw [makes_byte full value bytes made, List.length_singleton]
  · intro room enough
    exact ⟨[value], if_neg (by omega)⟩

theorem fits_raw (full : EncodeError) (value : Bytes) : (raw full value).Fits value.length 0 := by
  constructor
  · intro bytes made
    rw [makes_raw full value bytes made]
  · intro room enough
    exact ⟨value, if_neg (by omega)⟩

theorem fits_andThen (first second : Writer) (before after spare slack : Nat)
    (head : first.Fits before spare) (tail : second.Fits after slack)
    (left : spare ≤ after + slack) : (first.andThen second).Fits (before + after) slack := by
  constructor
  · intro bytes made
    obtain ⟨front, back, rfl, madeFront, madeBack⟩ := makes_andThen first second bytes made
    rw [List.length_append, head.exact front madeFront, tail.exact back madeBack]
  · intro room enough
    obtain ⟨front, written⟩ := head.writes room (by omega)
    have length := head.exact front ⟨room, written⟩
    obtain ⟨back, behind⟩ := tail.writes (room - front.length) (by omega)
    refine ⟨front ++ back, ?_⟩
    simp only [andThen, written, behind]

variable {tag : UInt8} {body : Writer} {length slack : Nat}

theorem fits_field {full : EncodeError} (fits : body.Fits length slack) :
    (field full tag body).Fits (1 + length) slack :=
  fits_andThen _ body 1 length 0 slack (fits_byte full tag) fits (Nat.zero_le _)

theorem fits_cons (first : Writer) (rest : List Writer) (before after slack : Nat)
    (head : first.Fits before 0) (tail : (all rest).Fits after slack) :
    (all (first :: rest)).Fits (before + after) slack :=
  fits_andThen first (all rest) before after 0 slack head tail (Nat.zero_le _)

theorem fits_all {writers : List Writer} {lengths : List Nat}
    (fits : List.Forall₂ (fun writer length => writer.Fits length 0) writers lengths) :
    (all writers).Fits lengths.sum 0 := by
  induction fits with
  | nil => exact fits_nothing 0
  | cons head tail ih =>
    rw [List.sum_cons]
    exact fits_cons _ _ _ _ 0 head ih

theorem fits_each {Item : Type} (items : List Item) (writer : Item → Writer) (length : Item → Nat)
    (slack : Nat) (fits : ∀ item ∈ items, (writer item).Fits (length item) slack) :
    (all (items.map writer)).Fits (items.map length).sum slack := by
  induction items with
  | nil => exact fits_nothing slack
  | cons first rest ih =>
    have head := fits first (List.mem_cons_self ..)
    have tail := ih fun item inside => fits item (List.mem_cons_of_mem first inside)
    rw [List.map_cons, List.map_cons, List.sum_cons]
    exact fits_andThen _ _ _ _ slack slack head tail (Nat.le_add_left ..)

theorem fits_onlyIf {present : Bool} (fits : present = true → writer.Fits length slack) :
    (onlyIf present writer).Fits (if present then length else 0) slack := by
  cases present with
  | false => exact fits_nothing slack
  | true => exact fits rfl

theorem fits_optional {Item : Type} {writer : Item → Writer} {length : Item → Nat}
    (held : Option Item)
    (fits : ∀ item, held = some item → (writer item).Fits (length item) slack) :
    (optional writer held).Fits ((held.map length).getD 0) slack := by
  cases held with
  | none => exact fits_nothing slack
  | some item => exact fits item rfl

theorem fits_checking (check : Nat → Option EncodeError) (writer : Writer) (length slack : Nat)
    (passes : ∀ room, length + slack ≤ room → check room = none)
    (fits : writer.Fits length slack) : (checking check writer).Fits length slack := by
  constructor
  · intro bytes made
    obtain ⟨room, _, written⟩ := makes_checking check writer bytes made
    exact fits.exact bytes ⟨room, written⟩
  · intro room enough
    simp only [checking, passes room enough]
    exact fits.writes room enough

theorem fits_mapErr {change : EncodeError → EncodeError} (fits : writer.Fits length slack) :
    (mapErr change writer).Fits length slack := by
  constructor
  · intro bytes made
    exact fits.exact bytes (makes_mapErr made)
  · intro room enough
    obtain ⟨bytes, written⟩ := fits.writes room enough
    exact ⟨bytes, by simp only [mapErr, written]⟩

theorem fits_slack (writer : Writer) (length slack more : Nat) (fits : writer.Fits length slack)
    (larger : slack ≤ more) : writer.Fits length more :=
  ⟨fits.exact, fun room enough => fits.writes room (by omega)⟩

def Orderly (writer : Writer) : Prop :=
  ∀ room reason, writer.write room = .error reason → reason.Insufficient

theorem fails (fits : writer.Fits length slack) (room : Nat) (short : room < length) :
    ∃ reason, writer.write room = .error reason := by
  cases made : writer.write room with
  | ok bytes =>
    have exact := fits.exact bytes ⟨room, made⟩
    have inside := writer.bounded room bytes made
    omega
  | error reason => exact ⟨reason, rfl⟩

theorem refuses (fits : writer.Fits length slack) (orderly : writer.Orderly) (room : Nat)
    (short : room < length) :
    ∃ required remaining, writer.write room = .error (.insufficientBuffer required remaining) := by
  obtain ⟨reason, failed⟩ := fails fits room short
  obtain ⟨required, remaining, rfl⟩ := orderly room reason failed
  exact ⟨required, remaining, failed⟩

section Orderly

theorem orderly_byte (required remaining : Nat) (value : UInt8) :
    (byte (.insufficientBuffer required remaining) value).Orderly := by
  intro room reason failed
  simp only [byte] at failed
  split at failed
  · cases failed
    exact ⟨required, remaining, rfl⟩
  · cases failed

theorem orderly_raw (required remaining : Nat) (bytes : Bytes) :
    (raw (.insufficientBuffer required remaining) bytes).Orderly := by
  intro room reason failed
  simp only [raw] at failed
  split at failed
  · cases failed
    exact ⟨required, remaining, rfl⟩
  · cases failed

end Orderly

end Writer

end Serf.Library.Encoding
