import Serf.Library.Framing
import Serf.Library.RecordLog
import Serf.Library.Spelling

/-!
The loop of a message decoder. It looks at the tag byte at its offset, lets the
arm of that tag take a field, and goes on behind it until the buffer is used
up. An arm stores what it read, refuses a second field of its tag, or only
remembers the range in which its fields stand; such a range is read later, when
the borrowed message is converted. The first half of the rules says what
reading written fields comes to, the second half what arbitrary bytes can do.
-/

namespace Serf.Library.Fields

open Encoding RecordLog

variable {Error State Value : Type}

structure Slot (State Value : Type) where
  held : State → Option Value
  put : State → Option Value → State
  held_put : ∀ state value, held (put state value) = value := by intros; rfl
  put_put : ∀ state first second, put (put state first) second = put state second := by
    intros; rfl
  put_held : ∀ state, put state (held state) = state := by intros; rfl

theorem Slot.put_none (slot : Slot State Value) (state : State) (fresh : slot.held state = none) :
    slot.put state none = state := by
  rw [← fresh, slot.put_held]

abbrev Arm (Error State : Type) :=
  (offset : Nat) → State → Bytes → Except (Fault Error) (State × Nat)

def fieldTurn (arms : UInt8 → Arm Error State) : Turn (Nat × State) (Fault Error) UInt8 :=
  fun state bytes =>
    match bytes with
    -- The loop ends with the buffer.
    | [] => .ok none
    | tag :: rest =>
      (arms tag state.1 state.2 (tag :: rest)).map fun (fields, taken) =>
        some ((state.1 + taken, fields), (tag :: rest).drop taken)

def scan (arms : UInt8 → Arm Error State) (start : State) (bytes : Bytes) :
    Except (Fault Error) (Nat × State) :=
  (replay (fieldTurn arms) (bytes.length + 1) (0, start) bytes).getD (.error .stuck)

def latest (slot : Slot State Value) (read : Read Error Value) : Arm Error State :=
  fun _ state bytes =>
    (read bytes.tail).map fun (taken, value) => (slot.put state (some value), 1 + taken)

def unlessHeld (slot : Slot State Value) (duplicate : Error) (arm : Arm Error State) :
    Arm Error State := fun offset state bytes =>
  match slot.held state with
  | some _ => .error (.error duplicate)
  | none => arm offset state bytes

def once (slot : Slot State Value) (duplicate : Error) (read : Read Error Value) :
    Arm Error State :=
  unlessHeld slot duplicate (latest slot read)

abbrev Skip (Error : Type) := Bytes → Except (Fault Error) Nat

def pass (skip : Skip Error) : Arm Error State := fun _ state bytes =>
  (skip bytes).map fun taken => (state, taken)

/-- The range that also covers the bytes from `start` to `stop`. -/
def extend (range : Option (Nat × Nat)) (start stop : Nat) : Nat × Nat :=
  match range with
  | none => (start, stop)
  | some (first, last) =>
    (if start < first then start else first, if last < stop then stop else last)

theorem extend_end (first last offset taken : Nat) (before : first ≤ offset)
    (behind : last ≤ offset) :
    extend (some (first, last)) offset (offset + taken) = (first, offset + taken) := by
  simp only [extend, if_neg (Nat.not_lt.mpr before)]
  by_cases grown : last < offset + taken
  · rw [if_pos grown]
  · rw [if_neg grown]
    congr
    omega

def spread (slot : Slot State (Nat × Nat)) (skip : Skip Error) : Arm Error State :=
  fun offset state bytes =>
    (skip bytes).map fun taken =>
      (slot.put state (some (extend (slot.held state) offset (offset + taken))), taken)

def gather (read : Read Error Value) : Arm Error (List Value) := fun _ values bytes =>
  (read bytes.tail).map fun (taken, value) => (values ++ [value], 1 + taken)

def itemArms (skip : Skip Error) (tag : UInt8) (read : Read Error Value) :
    UInt8 → Arm Error (List Value) := fun byte =>
  if byte = tag then gather read else pass skip

def repeated (skip : Skip Error) (tag : UInt8) (read : Read Error Value) (buffer : Bytes)
    (range : Option (Nat × Nat)) : Except (Fault Error) (List Value) :=
  match range with
  | none => .ok []
  | some (start, stop) =>
    if start ≤ stop ∧ stop ≤ buffer.length then
      (scan (itemArms skip tag read) [] ((buffer.take stop).drop start)).map Prod.snd
    else
      -- A range that does not lie in the buffer cannot be sliced.
      .error .panic

/-- What an iterator over the fields of one tag yields, up to the first that fails; a
fault that is not an error ends it at once. -/
def yields (skip : Skip Error) (tag : UInt8) (read : Read Error Value) :
    (fuel : Nat) → Bytes → Except (Fault Error) (List (Except Error Value))
  | 0, _ => .error .stuck
  | _ + 1, [] => .ok []
  | fuel + 1, byte :: rest =>
    if byte = tag then
      match read rest with
      | .ok (taken, value) =>
        (yields skip tag read fuel (rest.drop taken)).map fun later => .ok value :: later
      | .error (.error reason) => .ok [.error reason]
      | .error fault => .error fault
    else
      match skip (byte :: rest) with
      | .ok taken => yields skip tag read fuel ((byte :: rest).drop taken)
      | .error (.error reason) => .ok [.error reason]
      | .error fault => .error fault

def iterated (skip : Skip Error) (tag : UInt8) (read : Read Error Value) (buffer : Bytes)
    (range : Option (Nat × Nat)) : Except (Fault Error) (List (Except Error Value)) :=
  match range with
  | none => .ok []
  | some (start, stop) =>
    if start ≤ stop ∧ stop ≤ buffer.length then
      yields skip tag read (stop - start + 1) ((buffer.take stop).drop start)
    else
      .error .panic

/-- A `RepeatedDecoder`: its own functions, and what they compute. It passes over the fields
of other tags in its range by `skip`. -/
structure RepeatedDecoder (Error : Type) where
  skip : Skip Error
  repeated : {Value : Type} → (tag : UInt8) → Read Error Value → Bytes → Option (Nat × Nat) →
    Except (Fault Error) (List Value)
  iterated : {Value : Type} → (tag : UInt8) → Read Error Value → Bytes → Option (Nat × Nat) →
    Except (Fault Error) (List (Except Error Value))
  repeated_eq : ∀ {Value : Type} tag (read : Read Error Value) buffer range,
    repeated tag read buffer range = Fields.repeated skip tag read buffer range
  iterated_eq : ∀ {Value : Type} tag (read : Read Error Value) buffer range,
    iterated tag read buffer range = Fields.iterated skip tag read buffer range

def RepeatedDecoder.skipping (skip : Skip Error) : RepeatedDecoder Error where
  skip := skip
  repeated := Fields.repeated skip
  iterated := Fields.iterated skip
  repeated_eq _ _ _ _ := rfl
  iterated_eq _ _ _ _ := rfl

section Iterators

variable {skip : Skip Error} {tag : UInt8} {read : Read Error Value}

theorem yields_of_replay (fuel offset stop : Nat) (values final : List Value) (bytes : Bytes)
    (reads : replay (fieldTurn (itemArms skip tag read)) fuel (offset, values) bytes =
      some (.ok (stop, final))) :
    ∃ found, final = values ++ found ∧
      yields skip tag read fuel bytes = .ok (found.map .ok) := by
  induction fuel generalizing offset values bytes with
  | zero => cases reads
  | succ fuel ih =>
    cases bytes with
    | nil =>
      cases reads
      exact ⟨[], (List.append_nil _).symm, rfl⟩
    | cons byte rest =>
      by_cases own : byte = tag
      · subst own
        cases now : read rest with
        | error fault =>
          simp [replay, fieldTurn, itemArms, gather, now, Except.map] at reads
        | ok result =>
          obtain ⟨taken, value⟩ := result
          simp only [replay, fieldTurn, itemArms, if_true, gather, List.tail_cons, now,
            Except.map, Nat.add_comm 1, List.drop_succ_cons] at reads
          obtain ⟨found, rfl, later⟩ := ih _ _ _ reads
          refine ⟨value :: found, List.append_assoc .., ?_⟩
          simp only [yields, if_true, now, later]
          rfl
      · cases now : skip (byte :: rest) with
        | error fault =>
          simp [replay, fieldTurn, itemArms, own, pass, now, Except.map] at reads
        | ok taken =>
          simp only [replay, fieldTurn, itemArms, if_neg own, pass, now, Except.map] at reads
          obtain ⟨found, rfl, later⟩ := ih _ _ _ reads
          refine ⟨found, rfl, ?_⟩
          simp only [yields, if_neg own, now, later]

theorem iterated_of_repeated (buffer : Bytes) (range : Option (Nat × Nat)) (values : List Value)
    (reads : repeated skip tag read buffer range = .ok values) :
    iterated skip tag read buffer range = .ok (values.map .ok) := by
  cases range with
  | none =>
    cases reads
    rfl
  | some range =>
    obtain ⟨start, stop⟩ := range
    by_cases inside : start ≤ stop ∧ stop ≤ buffer.length
    · rw [repeated, if_pos inside] at reads
      obtain ⟨⟨taken, found⟩, scanned, rfl⟩ := map_ok reads
      have length : ((buffer.take stop).drop start).length = stop - start := by
        rw [List.length_drop, List.length_take, Nat.min_eq_left inside.2]
      rw [scan, length] at scanned
      cases replayed : replay (fieldTurn (itemArms skip tag read)) (stop - start + 1) (0, [])
          ((buffer.take stop).drop start) with
      | none =>
        rw [replayed] at scanned
        cases scanned
      | some result =>
        rw [replayed] at scanned
        change result = _ at scanned
        subst scanned
        obtain ⟨values, rfl, all⟩ := yields_of_replay _ _ _ _ _ _ replayed
        rw [iterated, if_pos inside, all]
    · rw [repeated, if_neg inside] at reads
      cases reads

theorem yields_no_error (fuel : Nat) (bytes : Bytes) (reason : Error) :
    yields skip tag read fuel bytes ≠ .error (.error reason) := by
  induction fuel generalizing bytes with
  | zero => simp [yields]
  | succ fuel ih =>
    cases bytes with
    | nil => simp [yields]
    | cons byte rest =>
      intro failed
      unfold yields at failed
      split at failed
      · split at failed
        · rename_i taken value _
          cases later : yields skip tag read fuel (rest.drop taken) with
          | error fault =>
            rw [later] at failed
            cases failed
            exact ih _ later
          | ok items =>
            rw [later] at failed
            cases failed
        · cases failed
        · rename_i fault other _
          cases failed
          exact other reason rfl
      · split at failed
        · exact ih _ failed
        · cases failed
        · rename_i fault other _
          cases failed
          exact other reason rfl

theorem iterated_no_error (buffer : Bytes) (range : Option (Nat × Nat)) (reason : Error) :
    iterated skip tag read buffer range ≠ .error (.error reason) := by
  unfold iterated
  split
  · simp
  · split
    · exact yields_no_error _ _ reason
    · simp

section Decoder

variable (repeating : RepeatedDecoder Error)

theorem RepeatedDecoder.iterated_of_repeated (buffer : Bytes) (range : Option (Nat × Nat))
    (values : List Value) (reads : repeating.repeated tag read buffer range = .ok values) :
    repeating.iterated tag read buffer range = .ok (values.map .ok) := by
  rw [repeating.repeated_eq] at reads
  rw [repeating.iterated_eq]
  exact Fields.iterated_of_repeated buffer range values reads

theorem RepeatedDecoder.iterated_no_error (buffer : Bytes) (range : Option (Nat × Nat))
    (reason : Error) : repeating.iterated tag read buffer range ≠ .error (.error reason) := by
  rw [repeating.iterated_eq]
  exact Fields.iterated_no_error buffer range reason

end Decoder

end Iterators

theorem scan_maps {Kept : Type} {arms : UInt8 → Arm Error State} {others : UInt8 → Arm Error Kept}
    (keep : State → Kept)
    (alike : ∀ tag offset state bytes, others tag offset (keep state) bytes =
      (arms tag offset state bytes).map fun (next, taken) => (keep next, taken))
    (start : State) (bytes : Bytes) :
    scan others (keep start) bytes =
      (scan arms start bytes).map fun (offset, state) => (offset, keep state) := by
  have turns : ∀ fuel offset state rest,
      replay (fieldTurn others) fuel (offset, keep state) rest =
        (replay (fieldTurn arms) fuel (offset, state) rest).map
          (Except.map fun (offset, state) => (offset, keep state)) := by
    intro fuel
    induction fuel with
    | zero =>
      intro offset state rest
      rfl
    | succ fuel ih =>
      intro offset state rest
      cases rest with
      | nil => rfl
      | cons tag rest =>
        cases now : arms tag offset state (tag :: rest) with
        | error fault => simp [replay, fieldTurn, alike, now, Except.map]
        | ok result => simp [replay, fieldTurn, alike, now, Except.map, ih]
  rw [scan, scan, turns]
  cases replay (fieldTurn arms) (bytes.length + 1) (0, start) bytes with
  | none => rfl
  | some result => rfl

section Written

variable {arms : UInt8 → Arm Error State}

def Advances (arms : UInt8 → Arm Error State) (offset : Nat) (state : State) (bytes : Bytes)
    (final : State) : Prop :=
  Reads (fieldTurn arms) (offset, state) bytes (offset + bytes.length, final)

theorem advances_nil (offset : Nat) (state : State) : Advances arms offset state [] state :=
  .done (offset, state)

theorem advances_append (offset : Nat) (state middle final : State) (before after : Bytes)
    (head : Advances arms offset state before middle)
    (tail : Advances arms (offset + before.length) middle after final) :
    Advances arms offset state (before ++ after) final := by
  have both := reads_append _ _ _ before after head tail
  rwa [Nat.add_assoc, ← List.length_append] at both

theorem advances_next {start state final : State} {before after : Bytes}
    (so : Advances arms 0 start before state)
    (now : Advances arms before.length state after final) :
    Advances arms 0 start (before ++ after) final := by
  rw [← Nat.zero_add before.length] at now
  exact advances_append 0 start state final before after so now

theorem advances_field (offset : Nat) (state final : State) (tag : UInt8) (content : Bytes)
    (now : ∀ more, arms tag offset state (tag :: (content ++ more)) =
      .ok (final, 1 + content.length)) :
    Advances arms offset state (tag :: content) final := by
  apply reads_record _ _ _ (List.cons_ne_nil tag content)
  intro more
  rw [List.cons_append, fieldTurn, now more]
  simp [Except.map, Nat.add_comm 1]

theorem replay_of_scan {arms : UInt8 → Arm Error State} {start : State} {bytes : Bytes}
    {final : Nat × State} (scanned : scan arms start bytes = .ok final) :
    replay (fieldTurn arms) (bytes.length + 1) (0, start) bytes = some (.ok final) := by
  rw [scan] at scanned
  cases replayed : replay (fieldTurn arms) (bytes.length + 1) (0, start) bytes with
  | none =>
    rw [replayed] at scanned
    cases scanned
  | some result =>
    rw [replayed, Option.getD_some] at scanned
    rw [scanned]

variable (fine : State → Prop) {fuel offset stop : Nat} {state final : State} {bytes : Bytes}

theorem replay_field {tag : UInt8} {rest : Bytes}
    (replayed : replay (fieldTurn arms) (fuel + 1) (offset, state) (tag :: rest) =
      some (.ok (stop, final))) :
    ∃ next taken, arms tag offset state (tag :: rest) = .ok (next, taken) ∧
      replay (fieldTurn arms) fuel (offset + taken, next) ((tag :: rest).drop taken) =
        some (.ok (stop, final)) := by
  cases now : arms tag offset state (tag :: rest) with
  | error fault => simp [replay, fieldTurn, now, Except.map] at replayed
  | ok result =>
    simp only [replay, fieldTurn, now, Except.map] at replayed
    exact ⟨result.1, result.2, rfl, replayed⟩

theorem replay_keeps
    (keeps : ∀ tag offset state bytes next taken,
      arms tag offset state bytes = .ok (next, taken) → fine state → fine next)
    (replayed : replay (fieldTurn arms) fuel (offset, state) bytes = some (.ok (stop, final)))
    (start : fine state) : fine final := by
  induction fuel generalizing offset state bytes with
  | zero => cases replayed
  | succ fuel ih =>
    cases bytes with
    | nil =>
      cases replayed
      exact start
    | cons tag rest =>
      obtain ⟨next, taken, now, later⟩ := replay_field replayed
      exact ih later (keeps tag offset state _ next taken now start)

theorem scan_of_advances (start final : State) (bytes : Bytes)
    (advances : Advances arms 0 start bytes final) :
    scan arms start bytes = .ok (bytes.length, final) := by
  have replayed := replay_of_reads (fun _ => rfl) (bytes.length + 1) _ _ bytes advances
    (Nat.lt_succ_self _)
  rw [scan, replayed, Nat.zero_add]
  rfl

theorem scan_whole (start final : State) (tag : UInt8) (rest : Bytes)
    (takes : arms tag 0 start (tag :: rest) = .ok (final, (tag :: rest).length)) :
    scan arms start (tag :: rest) = .ok ((tag :: rest).length, final) := by
  have turn : fieldTurn arms (0, start) (tag :: rest) =
      .ok (some (((tag :: rest).length, final), [])) := by
    simp only [fieldTurn, takes, Except.map, Nat.zero_add, List.drop_length]
  simp only [scan, List.length_cons, replay, turn]
  rfl

/-- The loop has come to this state in the buffer, and these groups of parts are still
to come. -/
def Stands (arms : UInt8 → Arm Error State) (start : State) (buffer : Bytes) (state : State)
    (groups : List (List Part)) : Prop :=
  ∃ before rest, buffer = before ++ rest ∧ Advances arms 0 start before state ∧
    Consists groups.flatten rest

variable {start state : State} {buffer : Bytes} {groups : List (List Part)}

theorem stands_written (arms : UInt8 → Arm Error State) (start : State) {writer : Writer}
    (spells : writer.Spells groups.flatten) (made : writer.Makes buffer) :
    Stands arms start buffer start groups :=
  ⟨[], buffer, rfl, advances_nil 0 start, spells buffer made⟩

theorem Stands.scans (so : Stands arms start buffer state []) :
    scan arms start buffer = .ok (buffer.length, state) := by
  obtain ⟨before, rest, rfl, reached, consists⟩ := so
  rw [consists_nil consists, List.append_nil]
  exact scan_of_advances start state before reached

theorem Stands.next {part : Part} {parts : List Part}
    (so : Stands arms start buffer state ((part :: parts) :: groups)) :
    ∃ before content back, buffer = before ++ (part.tag :: content ++ back) ∧
      Advances arms 0 start before state ∧ part.content.Makes content ∧
      Consists (parts ++ groups.flatten) back := by
  obtain ⟨before, rest, rfl, reached, consists⟩ := so
  obtain ⟨content, back, rfl, made, later⟩ := consists_cons consists
  exact ⟨before, content, back, rfl, reached, made, later⟩

section Stored

variable {tag : UInt8} {slot : Slot State Value} {read : Read Error Value} {body : Writer}
  {wanted : Value → Prop} {duplicate : Error}

def Stores (arms : UInt8 → Arm Error State) (tag : UInt8) (slot : Slot State Value)
    (read : Read Error Value) (state : State) : Prop :=
  ∀ offset bytes, arms tag offset state bytes = latest slot read offset state bytes

theorem latest_stores (arm : arms tag = latest slot read) : Stores arms tag slot read state := by
  intro offset bytes
  rw [arm]

theorem once_stores (arm : arms tag = once slot duplicate read)
    (fresh : slot.held state = none) : Stores arms tag slot read state := by
  intro offset bytes
  simp only [arm, once, unlessHeld, fresh]

theorem stored_advances (stores : Stores arms tag slot read state) {content : Bytes} {value : Value}
    (reads : ∀ more, read (content ++ more) = .ok (content.length, value)) (offset : Nat) :
    Advances arms offset state (tag :: content) (slot.put state (some value)) := by
  apply advances_field
  intro more
  rw [stores, latest, List.tail_cons, reads more]
  rfl

theorem Stands.field (so : Stands arms start buffer state ([⟨tag, body⟩] :: groups))
    (stores : Stores arms tag slot read state) (inverts : Inverts body read wanted) :
    ∃ value, wanted value ∧
      Stands arms start buffer (slot.put state (some value)) groups := by
  obtain ⟨before, content, back, rfl, reached, made, later⟩ := so.next
  obtain ⟨value, good, reads⟩ := inverts content made
  refine ⟨value, good, before ++ (tag :: content), back, ?_,
    advances_next reached (stored_advances stores reads _), later⟩
  rw [List.append_assoc]

theorem Stands.absent (so : Stands arms start buffer state ([] :: groups))
    (fresh : slot.held state = none) :
    Stands arms start buffer (slot.put state none) groups := by
  rw [slot.put_none state fresh]
  exact so

theorem Stands.elided (present : Bool)
    (so : Stands arms start buffer state
      ((if present then [⟨tag, body⟩] else []) :: groups))
    (arm : present = true → arms tag = once slot duplicate read)
    (inverts : present = true → Inverts body read wanted) (fresh : slot.held state = none) :
    ∃ held, (if present then ∃ value, held = some value ∧ wanted value else held = none) ∧
      Stands arms start buffer (slot.put state held) groups := by
  cases present with
  | false => exact ⟨none, rfl, so.absent fresh⟩
  | true =>
    obtain ⟨value, good, so⟩ := so.field (once_stores (arm rfl) fresh) (inverts rfl)
    exact ⟨some value, ⟨value, rfl, good⟩, so⟩

theorem Stands.optional {Item : Type} {body : Item → Writer} {wanted : Item → Value → Prop}
    (held : Option Item)
    (so : Stands arms start buffer state
      ((held.toList.map fun item => ⟨tag, body item⟩) :: groups))
    (stores : Stores arms tag slot read state)
    (inverts : ∀ item, held = some item → Inverts (body item) read (wanted item))
    (fresh : slot.held state = none) :
    ∃ found, Option.Rel wanted held found ∧
      Stands arms start buffer (slot.put state found) groups := by
  cases held with
  | none => exact ⟨none, .none, so.absent fresh⟩
  | some item =>
    obtain ⟨value, good, so⟩ := Stands.field so stores (inverts item rfl)
    exact ⟨some value, .some good, so⟩

end Stored

section Repetition

variable {Item : Type} {tag : UInt8} {skip passes : Skip Error} {body : Item → Writer}
  {slot : Slot State (Nat × Nat)} {read : Read Error Value} {wanted : Item → Value → Prop}

def Skipped (tag : UInt8) (skip : Skip Error) (writer : Writer) : Prop :=
  ∀ content, writer.Makes content →
    ∀ more, skip (tag :: (content ++ more)) = .ok (1 + content.length)

theorem spread_advances (arm : arms tag = spread slot skip) {writer : Writer} {content : Bytes}
    (skips : Skipped tag skip writer) (made : writer.Makes content) (offset : Nat) (state : State) :
    Advances arms offset state (tag :: content) (slot.put state
      (some (extend (slot.held state) offset (offset + (tag :: content).length)))) := by
  apply advances_field
  intro more
  simp only [arm, spread, skips content made more, Except.map, List.length_cons, Nat.add_comm 1]

theorem gather_advances {content : Bytes} {value : Value}
    (reads : ∀ more, read (content ++ more) = .ok (content.length, value)) (offset : Nat)
    (values : List Value) :
    Advances (itemArms passes tag read) offset values (tag :: content) (values ++ [value]) := by
  apply advances_field
  intro more
  simp only [itemArms, if_true, gather, List.tail_cons, reads more, Except.map]

/-- Behind the first field of a range. The loop keeps the range open from `first` to
where it stands; read as items, the same bytes add the values of the fields. -/
theorem spread_items (arm : arms tag = spread slot skip) (items : List Item)
    (skips : ∀ item ∈ items, Skipped tag skip (body item))
    (inverts : ∀ item ∈ items, Inverts (body item) read (wanted item)) (parts : List Part)
    (bytes : Bytes)
    (consists : Consists ((items.map fun item => ⟨tag, body item⟩) ++ parts) bytes) :
    ∃ front back found, bytes = front ++ back ∧ Consists parts back ∧
      List.Forall₂ wanted items found ∧
      (∀ first offset state, first ≤ offset →
        Advances arms offset (slot.put state (some (first, offset))) front
          (slot.put state (some (first, offset + front.length)))) ∧
      ∀ offset values,
        Advances (itemArms passes tag read) offset values front (values ++ found) := by
  induction items generalizing bytes with
  | nil =>
    refine ⟨[], bytes, [], rfl, consists, .nil, ?_, ?_⟩
    · intro first offset state _
      exact advances_nil offset _
    · intro offset values
      rw [List.append_nil]
      exact advances_nil offset values
  | cons item rest ih =>
    obtain ⟨content, back, rfl, made, later⟩ := consists_cons consists
    obtain ⟨value, good, reads⟩ := inverts item (List.mem_cons_self ..) content made
    obtain ⟨front, back, found, rfl, consists, matched, grows, adds⟩ :=
      ih (fun other inside => skips other (List.mem_cons_of_mem item inside))
        (fun other inside => inverts other (List.mem_cons_of_mem item inside)) back later
    refine ⟨tag :: content ++ front, back, value :: found, ?_, consists, .cons good matched, ?_, ?_⟩
    · simp only [List.append_assoc]
    · intro first offset state before
      -- The field moves the end of the range behind itself.
      have now := spread_advances arm (skips item (List.mem_cons_self ..)) made offset
        (slot.put state (some (first, offset)))
      have later := grows first (offset + (tag :: content).length) state (by omega)
      rw [slot.held_put, slot.put_put, extend_end first offset _ _ (by omega) (by omega)] at now
      rw [List.length_append, ← Nat.add_assoc]
      exact advances_append offset _ _ _ _ _ now later
    · intro offset values
      have later := adds (offset + (tag :: content).length) (values ++ [value])
      rw [List.append_assoc] at later
      exact advances_append offset _ _ _ _ _ (gather_advances reads offset values) later

theorem repeated_slice {values : List Value} {before slice after : Bytes}
    (reads : Advances (itemArms passes tag read) 0 [] slice values) :
    repeated passes tag read (before ++ (slice ++ after))
      (some (before.length, before.length + slice.length)) = .ok values := by
  have whole := scan_of_advances [] values slice reads
  have cut : ((before ++ (slice ++ after)).take (before.length + slice.length)).drop
      before.length = slice := by
    rw [List.take_length_add_append, List.drop_left, List.take_left]
  have inside : before.length ≤ before.length + slice.length ∧
      before.length + slice.length ≤ (before ++ (slice ++ after)).length := by
    simp only [List.length_append]
    omega
  simp only [repeated, if_pos inside, cut, whole, Except.map]

/-- Fields of one tag: the loop passes over them and keeps the range in which they
stand, and the range is read as their values. -/
theorem Stands.repeated (items : List Item)
    (so : Stands arms start buffer state
      ((items.map fun item => ⟨tag, body item⟩) :: groups))
    (arm : arms tag = spread slot skip)
    (skips : ∀ item ∈ items, Skipped tag skip (body item))
    (inverts : ∀ item ∈ items, Inverts (body item) read (wanted item))
    (fresh : slot.held state = none) :
    ∃ range found, List.Forall₂ wanted items found ∧
      Fields.repeated passes tag read buffer range = .ok found ∧
      Stands arms start buffer (slot.put state range) groups := by
  cases items with
  | nil => exact ⟨none, [], .nil, rfl, so.absent fresh⟩
  | cons item rest =>
    obtain ⟨before, content, back, rfl, reached, made, later⟩ := Stands.next so
    obtain ⟨value, good, reads⟩ := inverts item (List.mem_cons_self ..) content made
    obtain ⟨front, back, found, rfl, consists, matched, grows, adds⟩ :=
      spread_items arm rest (fun other inside => skips other (List.mem_cons_of_mem item inside))
        (fun other inside => inverts other (List.mem_cons_of_mem item inside)) groups.flatten
        back later
    have now := spread_advances arm (skips item (List.mem_cons_self ..)) made before.length state
    have more := grows before.length (before.length + (tag :: content).length) state (by omega)
    have slice := advances_append 0 _ _ _ _ _ (gather_advances reads 0 []) (adds _ [value])
    rw [fresh, extend] at now
    refine ⟨some (before.length, before.length + (tag :: content ++ front).length),
      value :: found, .cons good matched, ?_, before ++ (tag :: content ++ front), back, ?_, ?_,
      consists⟩
    · rw [← List.append_assoc (tag :: content)]
      exact repeated_slice slice
    · simp only [List.append_assoc]
    · have size : before.length + (tag :: content ++ front).length =
          before.length + (tag :: content).length + front.length := by
        rw [List.length_append, Nat.add_assoc]
      rw [size]
      exact advances_next reached (advances_append _ _ _ _ _ _ now more)

end Repetition

end Written

section Arbitrary

structure Skips (skip : Skip Error) : Prop where
  returns : ∀ bytes, Returns (skip bytes)
  takes : ∀ bytes taken, bytes ≠ [] → skip bytes = .ok taken →
    1 ≤ taken ∧ taken ≤ bytes.length

/-- What an arm that succeeds does: it advances within the buffer and keeps an
invariant of the offset and the fields. -/
structure Steady (fine : Nat → State → Prop) (arm : Arm Error State) : Prop where
  takes : ∀ offset state bytes final taken, bytes ≠ [] →
    arm offset state bytes = .ok (final, taken) → 1 ≤ taken ∧ taken ≤ bytes.length
  keeps : ∀ offset state bytes final taken, fine offset state →
    arm offset state bytes = .ok (final, taken) → fine (offset + taken) final

structure Safe (fine : Nat → State → Prop) (arm : Arm Error State) : Prop
    extends Steady fine arm where
  returns : ∀ offset state bytes, Returns (arm offset state bytes)

variable {fine : Nat → State → Prop} {wanted : Value → Prop} {slot : Slot State Value}
  {read : Read Error Value} {skip : Skip Error} {arm : Arm Error State} {duplicate : Error}
  {least : Nat}

section Succeeds

variable {offset taken : Nat} {state final : State} {bytes : Bytes}

theorem latest_ok (now : latest slot read offset state bytes = .ok (final, taken)) :
    ∃ inner value, read bytes.tail = .ok (inner, value) ∧ final = slot.put state (some value) ∧
      taken = 1 + inner := by
  obtain ⟨⟨inner, value⟩, reads, equal⟩ := map_ok now
  cases equal
  exact ⟨inner, value, reads, rfl, rfl⟩

theorem unlessHeld_ok
    (now : unlessHeld slot duplicate arm offset state bytes = .ok (final, taken)) :
    slot.held state = none ∧ arm offset state bytes = .ok (final, taken) := by
  unfold unlessHeld at now
  split at now
  · cases now
  · exact ⟨‹_›, now⟩

theorem once_ok (now : once slot duplicate read offset state bytes = .ok (final, taken)) :
    slot.held state = none ∧ ∃ inner value, read bytes.tail = .ok (inner, value) ∧
      final = slot.put state (some value) ∧ taken = 1 + inner := by
  obtain ⟨fresh, stored⟩ := unlessHeld_ok now
  exact ⟨fresh, latest_ok stored⟩

theorem pass_ok (now : pass skip offset state bytes = .ok (final, taken)) :
    final = state ∧ skip bytes = .ok taken := by
  obtain ⟨size, passed, equal⟩ := map_ok now
  cases equal
  exact ⟨rfl, passed⟩

end Succeeds

theorem latest_steady_of_reads (takes : Takes read least wanted)
    (stores : ∀ offset bytes taken state value, fine offset state →
      read bytes = .ok (taken, value) → fine (offset + (1 + taken)) (slot.put state (some value))) :
    Steady fine (latest slot read) := by
  constructor
  · intro offset state bytes final taken given now
    obtain ⟨inner, value, reads, _, rfl⟩ := latest_ok now
    have inside := takes _ _ _ reads
    have positive := List.length_pos_iff.mpr given
    rw [List.length_tail] at inside
    omega
  · intro offset state bytes final taken held now
    obtain ⟨inner, value, reads, rfl, rfl⟩ := latest_ok now
    exact stores offset _ inner state value held reads

theorem latest_steady (takes : Takes read least wanted)
    (stores : ∀ offset taken state value, fine offset state → wanted value →
      fine (offset + taken) (slot.put state (some value))) : Steady fine (latest slot read) :=
  latest_steady_of_reads takes fun offset _ taken state value held reads =>
    stores offset (1 + taken) state value held (takes _ _ _ reads).2.2

theorem latest_safe (total : Total read least wanted)
    (stores : ∀ offset taken state value, fine offset state → wanted value →
      fine (offset + taken) (slot.put state (some value))) : Safe fine (latest slot read) :=
  ⟨latest_steady total.takes stores, fun _ _ bytes =>
    (returns_map _ _).mpr (total.returns bytes.tail)⟩

theorem unlessHeld_steady (steady : Steady fine arm) :
    Steady fine (unlessHeld slot duplicate arm) := by
  constructor
  · intro offset state bytes final taken given now
    exact steady.takes offset state bytes final taken given (unlessHeld_ok now).2
  · intro offset state bytes final taken held now
    exact steady.keeps offset state bytes final taken held (unlessHeld_ok now).2

theorem unlessHeld_returns_iff (offset : Nat) (state : State) (bytes : Bytes) :
    Returns (unlessHeld slot duplicate arm offset state bytes) ↔
      (slot.held state = none → Returns (arm offset state bytes)) := by
  unfold unlessHeld
  split
  · rename_i held
    simp [held, Returns, Fault.Reported]
  · rename_i fresh
    simp [fresh]

theorem unlessHeld_safe (safe : Safe fine arm) : Safe fine (unlessHeld slot duplicate arm) :=
  ⟨unlessHeld_steady safe.toSteady, fun offset state bytes =>
    (unlessHeld_returns_iff offset state bytes).mpr fun _ => safe.returns offset state bytes⟩

theorem once_steady (takes : Takes read least wanted)
    (stores : ∀ offset taken state value, fine offset state → wanted value →
      fine (offset + taken) (slot.put state (some value))) :
    Steady fine (once slot duplicate read) :=
  unlessHeld_steady (latest_steady takes stores)

theorem once_safe (total : Total read least wanted)
    (stores : ∀ offset taken state value, fine offset state → wanted value →
      fine (offset + taken) (slot.put state (some value))) :
    Safe fine (once slot duplicate read) :=
  unlessHeld_safe (latest_safe total stores)

theorem once_returns_iff (offset : Nat) (state : State) (bytes : Bytes) :
    Returns (once slot duplicate read offset state bytes) ↔
      (slot.held state = none → Returns (read bytes.tail)) := by
  rw [once, unlessHeld_returns_iff, latest, returns_map]

theorem pass_safe (skips : Skips skip)
    (grows : ∀ offset taken state, fine offset state → fine (offset + taken) state) :
    Safe fine (pass skip) := by
  refine ⟨⟨?_, ?_⟩, fun _ _ bytes => (returns_map _ _).mpr (skips.returns bytes)⟩
  · intro offset state bytes final taken given now
    exact skips.takes bytes taken given (pass_ok now).2
  · intro offset state bytes final taken held now
    rw [(pass_ok now).1]
    exact grows offset taken state held

theorem steady_ite {condition : Prop} [Decidable condition] {first second : Arm Error State}
    (yes : Steady fine first) (no : Steady fine second) :
    Steady fine (if condition then first else second) := by
  split <;> assumption

theorem safe_ite {condition : Prop} [Decidable condition] {first second : Arm Error State}
    (yes : Safe fine first) (no : Safe fine second) :
    Safe fine (if condition then first else second) := by
  split <;> assumption

def Within (range : Option (Nat × Nat)) (offset : Nat) : Prop :=
  match range with
  | none => True
  | some (start, stop) => start ≤ stop ∧ stop ≤ offset

theorem within_grows {range : Option (Nat × Nat)} {offset : Nat} (taken : Nat)
    (inside : Within range offset) : Within range (offset + taken) := by
  cases range with
  | none => trivial
  | some pair => exact ⟨inside.1, by have := inside.2; omega⟩

theorem within_extend {range : Option (Nat × Nat)} {offset : Nat} (taken : Nat)
    (inside : Within range offset) :
    Within (some (extend range offset (offset + taken))) (offset + taken) := by
  cases range with
  | none => exact ⟨by omega, by omega⟩
  | some pair =>
    obtain ⟨first, last⟩ := pair
    obtain ⟨order, before⟩ : first ≤ last ∧ last ≤ offset := inside
    simp only [Within, extend]
    split <;> split <;> omega

theorem spread_safe {slot : Slot State (Nat × Nat)} (skips : Skips skip)
    (stores : ∀ offset taken state, fine offset state →
      fine (offset + taken)
        (slot.put state (some (extend (slot.held state) offset (offset + taken))))) :
    Safe fine (spread slot skip) := by
  refine ⟨⟨?_, ?_⟩, fun _ _ bytes => (returns_map _ _).mpr (skips.returns bytes)⟩
  · intro offset state bytes final taken given now
    obtain ⟨size, passed, equal⟩ := map_ok now
    cases equal
    exact skips.takes bytes _ given passed
  · intro offset state bytes final taken held now
    obtain ⟨size, passed, equal⟩ := map_ok now
    cases equal
    exact stores offset _ state held

section Loop

variable {arms : UInt8 → Arm Error State}

theorem fieldTurn_some (arms : UInt8 → Arm Error State) (state next : Nat × State)
    (bytes rest : Bytes) (step : fieldTurn arms state bytes = .ok (some (next, rest))) :
    ∃ tag behind final taken, bytes = tag :: behind ∧
      arms tag state.1 state.2 bytes = .ok (final, taken) ∧
      next = (state.1 + taken, final) ∧ rest = bytes.drop taken := by
  cases bytes with
  | nil => cases step
  | cons tag behind =>
    obtain ⟨⟨final, taken⟩, now, equal⟩ := map_ok step
    cases equal
    exact ⟨tag, behind, final, taken, rfl, now, rfl, rfl⟩

variable (steady : ∀ tag, Steady fine (arms tag))

include steady

theorem fieldTurn_shrinks (state next : Nat × State) (bytes rest : Bytes)
    (step : fieldTurn arms state bytes = .ok (some (next, rest))) : rest.length < bytes.length := by
  obtain ⟨tag, behind, final, taken, rfl, now, _, rfl⟩ :=
    fieldTurn_some arms state next bytes _ step
  have inside := (steady tag).takes _ _ _ _ _ (List.cons_ne_nil tag behind) now
  rw [List.length_drop]
  omega

/-- The loop uses up the buffer, and what each turn keeps of the bytes behind the offset
holds of the whole buffer in the end. -/
theorem scan_follows {holds : Bytes → State → Prop} (start : State) (begins : holds [] start)
    (bytes : Bytes) (taken : Nat) (final : State)
    (follows : ∀ tag before rest state final taken, bytes = before ++ tag :: rest →
      holds before state → arms tag before.length state (tag :: rest) = .ok (final, taken) →
      holds (before ++ (tag :: rest).take taken) final)
    (scanned : scan arms start bytes = .ok (taken, final)) :
    taken = bytes.length ∧ holds bytes final := by
  unfold scan at scanned
  cases replayed : replay (fieldTurn arms) (bytes.length + 1) (0, start) bytes with
  | none => simp [replayed] at scanned
  | some result =>
    rw [replayed, Option.getD_some] at scanned
    subst scanned
    obtain ⟨rest, reached, ended⟩ := reaches_of_replay _ _ _ bytes replayed
    -- Along the loop the bytes that were taken and the rest always make up the buffer.
    have kept := reaches_invariant (fun state rest => ∃ before, bytes = before ++ rest ∧
      state.1 = before.length ∧ holds before state.2) ?_ _ _ _ _ reached ⟨[], rfl, rfl, begins⟩
    · obtain ⟨before, parts, offset, held⟩ := kept
      cases rest with
      | nil =>
        rw [List.append_nil] at parts
        subst parts
        exact ⟨offset, held⟩
      | cons tag behind =>
        obtain ⟨pair, _, equal⟩ := map_ok ended
        cases equal
    · rintro ⟨_, state⟩ next rest last ⟨before, parts, rfl, held⟩ step
      obtain ⟨tag, behind, after, size, rfl, now, rfl, rfl⟩ :=
        fieldTurn_some arms _ next rest _ step
      have inside := (steady tag).takes _ _ _ _ _ (List.cons_ne_nil tag behind) now
      refine ⟨before ++ (tag :: behind).take size, ?_, ?_,
        follows tag before behind state after size parts held now⟩
      · rw [List.append_assoc, List.take_append_drop, parts]
      · rw [List.length_append, List.length_take, Nat.min_eq_left inside.2]

theorem scan_takes (start : State) (begins : fine 0 start) (bytes : Bytes) (taken : Nat)
    (final : State) (scanned : scan arms start bytes = .ok (taken, final)) :
    taken = bytes.length ∧ fine taken final := by
  have kept : ∀ tag before rest state after size, bytes = before ++ tag :: rest →
      fine before.length state → arms tag before.length state (tag :: rest) = .ok (after, size) →
      fine (before ++ (tag :: rest).take size).length after := by
    intro tag before rest state after size _ held now
    have inside := (steady tag).takes _ _ _ _ _ (List.cons_ne_nil tag rest) now
    rw [List.length_append, List.length_take, Nat.min_eq_left inside.2]
    exact (steady tag).keeps _ _ _ _ _ held now
  obtain ⟨rfl, held⟩ := scan_follows steady start begins bytes taken final kept scanned
  exact ⟨rfl, held⟩

theorem scan_returns_iff (start : State) (bytes : Bytes) :
    Returns (scan arms start bytes) ↔
      ∀ offset state tag rest,
        Reaches (fieldTurn arms) (0, start) bytes (offset, state) (tag :: rest) →
        Returns (arms tag offset state (tag :: rest)) := by
  have shrinks := fieldTurn_shrinks steady
  obtain ⟨result, replayed⟩ := replay_returns shrinks (bytes.length + 1) (0, start) bytes
    (Nat.lt_succ_self _)
  constructor
  · intro back offset state tag rest reached
    cases now : arms tag offset state (tag :: rest) with
    | ok pair => trivial
    | error fault =>
      -- A turn that fails once it is reached makes the loop fail with the same fault.
      have fails : fieldTurn arms (offset, state) (tag :: rest) = .error fault := by
        rw [fieldTurn, now]
        rfl
      have failed := failure_of_reaches shrinks _ _ bytes _ fault reached fails
        (bytes.length + 1) (Nat.lt_succ_self _)
      rw [scan, failed] at back
      exact back
  · intro all
    rw [scan, replayed, Option.getD_some]
    cases result with
    | ok final => trivial
    | error fault =>
      obtain ⟨⟨offset, state⟩, rest, reached, fails⟩ :=
        reaches_of_failure _ _ bytes fault replayed
      cases rest with
      | nil => cases fails
      | cons tag behind =>
        have turned : Returns (fieldTurn arms (offset, state) (tag :: behind)) :=
          (returns_map _ _).mpr (all offset state tag behind reached)
        rw [fails] at turned
        exact turned

end Loop

theorem scan_returns {arms : UInt8 → Arm Error State} (safe : ∀ tag, Safe fine (arms tag))
    (start : State) (bytes : Bytes) : Returns (scan arms start bytes) := by
  rw [scan_returns_iff fun tag => (safe tag).toSteady]
  intro offset state tag rest _
  exact (safe tag).returns offset state (tag :: rest)

section Afterwards

variable {Next : Type} {arms : UInt8 → Arm Error State} {after : Next → Prop}
  {next : Nat × State → Except (Fault Error) Next}

theorem ends_steady (steady : ∀ tag, Steady fine (arms tag)) (start : State)
    (begins : fine 0 start) (bytes : Bytes) (back : Returns (scan arms start bytes))
    (later : ∀ final, fine bytes.length final → Ends after (next (bytes.length, final))) :
    Ends after (scan arms start bytes >>= next) := by
  apply ends_bind back
  rintro ⟨taken, final⟩ scanned
  obtain ⟨rfl, held⟩ := scan_takes steady start begins bytes taken final scanned
  exact later final held

theorem ends_scan (safe : ∀ tag, Safe fine (arms tag)) (start : State) (begins : fine 0 start)
    (bytes : Bytes)
    (later : ∀ final, fine bytes.length final → Ends after (next (bytes.length, final))) :
    Ends after (scan arms start bytes >>= next) :=
  ends_steady (fun tag => (safe tag).toSteady) start begins bytes (scan_returns safe start bytes)
    later

theorem scan_bind_returns_iff (steady : ∀ tag, Steady fine (arms tag)) (start : State)
    (bytes : Bytes)
    (ends : Returns (scan arms start bytes) → Ends after (scan arms start bytes >>= next)) :
    Returns (scan arms start bytes >>= next) ↔
      ∀ offset state tag rest,
        Reaches (fieldTurn arms) (0, start) bytes (offset, state) (tag :: rest) →
        Returns (arms tag offset state (tag :: rest)) := by
  rw [← scan_returns_iff steady]
  exact ⟨returns_of_bind, fun back => returns_of_ends (ends back)⟩

end Afterwards

theorem gather_safe (total : Total read least wanted) :
    Safe (fun _ _ => True) (gather read) := by
  refine ⟨⟨?_, fun _ _ _ _ _ _ _ => trivial⟩, fun _ _ bytes =>
    (returns_map _ _).mpr (total.returns bytes.tail)⟩
  intro offset state bytes final taken given now
  obtain ⟨⟨inner, value⟩, reads, equal⟩ := map_ok now
  cases equal
  have inside := total.takes _ _ _ reads
  have positive := List.length_pos_iff.mpr given
  rw [List.length_tail] at inside
  omega

theorem repeated_returns (skips : Skips skip) (total : Total read least wanted) (tag : UInt8)
    (buffer : Bytes) (range : Option (Nat × Nat)) (inside : Within range buffer.length) :
    Returns (repeated skip tag read buffer range) := by
  have safe : ∀ byte, Safe (fun _ _ => True) (itemArms skip tag read byte) := by
    intro byte
    unfold itemArms
    split
    · exact gather_safe total
    · exact pass_safe skips fun _ _ _ _ => trivial
  cases range with
  | none => trivial
  | some pair =>
    obtain ⟨start, stop⟩ := pair
    have back := scan_returns safe [] ((buffer.take stop).drop start)
    rw [repeated, if_pos (show start ≤ stop ∧ stop ≤ buffer.length from inside), returns_map]
    exact back

end Arbitrary

end Serf.Library.Fields
