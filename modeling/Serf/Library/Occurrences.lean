import Mathlib.Data.List.Count
import Mathlib.Data.List.Defs
import Serf.Library.Fields

/-!
Fields that occur more than once. Which fields a buffer contains does not depend on what
the loop has read: every field is read on its own, as if it were the first. A loop whose
arms refuse a field while a place is filled, and which never empties that place, fails on
every buffer with such a field behind one that fills it.
-/

namespace Serf.Library.Fields

open Encoding RecordLog

variable {Error State Value Result : Type}

/-- The fields in the bytes, each behind its tag, up to the first that cannot be read, and
why that one cannot. -/
structure Cut (Error : Type) where
  fields : List (UInt8 × Bytes)
  obstacle : Option (Fault Error)

def cut (arms : UInt8 → Arm Error State) (start : State) : (fuel offset : Nat) → Bytes → Cut Error
  | 0, _, _ => ⟨[], some .stuck⟩
  | _ + 1, _, [] => ⟨[], none⟩
  | fuel + 1, offset, tag :: rest =>
    match arms tag offset start (tag :: rest) with
    | .ok (_, taken) =>
      let later := cut arms start fuel (offset + taken) ((tag :: rest).drop taken)
      ⟨(tag, rest.take (taken - 1)) :: later.fields, later.obstacle⟩
    | .error fault => ⟨[(tag, rest)], some fault⟩

def occurrences (arms : UInt8 → Arm Error State) (start : State) (fuel offset : Nat)
    (bytes : Bytes) : List UInt8 :=
  (cut arms start fuel offset bytes).fields.map Prod.fst

def fieldsIn (arms : UInt8 → Arm Error State) (start : State) (bytes : Bytes) :
    List (UInt8 × Bytes) :=
  (cut arms start (bytes.length + 1) 0 bytes).fields

def obstacle (arms : UInt8 → Arm Error State) (start : State) (bytes : Bytes) :
    Option (Fault Error) :=
  (cut arms start (bytes.length + 1) 0 bytes).obstacle

def tagsIn (arms : UInt8 → Arm Error State) (start : State) (bytes : Bytes) : List UInt8 :=
  occurrences arms start (bytes.length + 1) 0 bytes

def Refused (outcome : Except (Fault Error) Result) : Prop :=
  ∃ reason, outcome = .error (.error reason)

def Uniform (start : State) (arm : Arm Error State) : Prop :=
  ∀ offset state bytes, Refused (arm offset state bytes) ∨
    (arm offset state bytes).map Prod.snd = (arm offset start bytes).map Prod.snd

structure Guard (arms : UInt8 → Arm Error State) (start : State) (full : State → Prop)
    (fills refused : List UInt8) : Prop where
  uniform : ∀ tag, Uniform start (arms tag)
  keeps : ∀ tag offset state bytes next taken, arms tag offset state bytes = .ok (next, taken) →
    full state ∨ tag ∈ fills → full next
  refuses : ∀ tag ∈ refused, ∀ offset state bytes, full state →
    Refused (arms tag offset state bytes)

section Loop

variable {arms : UInt8 → Arm Error State} {start : State} {full : State → Prop}
  {fills refused : List UInt8}

theorem turn_alike (fuel offset : Nat) (state : State) (tag : UInt8) (rest : Bytes)
    (same : (arms tag offset state (tag :: rest)).map Prod.snd =
      (arms tag offset start (tag :: rest)).map Prod.snd) :
    (∃ next taken, arms tag offset state (tag :: rest) = .ok (next, taken) ∧
        replay (fieldTurn arms) (fuel + 1) (offset, state) (tag :: rest) =
          replay (fieldTurn arms) fuel (offset + taken, next) ((tag :: rest).drop taken) ∧
        occurrences arms start (fuel + 1) offset (tag :: rest) =
          tag :: occurrences arms start fuel (offset + taken) ((tag :: rest).drop taken) ∧
        (cut arms start (fuel + 1) offset (tag :: rest)).obstacle =
          (cut arms start fuel (offset + taken) ((tag :: rest).drop taken)).obstacle) ∨
      (∃ fault, arms tag offset state (tag :: rest) = .error fault ∧
        replay (fieldTurn arms) (fuel + 1) (offset, state) (tag :: rest) = some (.error fault) ∧
        cut arms start (fuel + 1) offset (tag :: rest) = ⟨[(tag, rest)], some fault⟩) := by
  cases now : arms tag offset state (tag :: rest) with
  | ok result =>
    obtain ⟨next, taken⟩ := result
    rw [now] at same
    obtain ⟨⟨other, size⟩, alone, equal⟩ := map_ok same.symm
    cases equal
    refine .inl ⟨next, taken, rfl, ?_, ?_, ?_⟩
    · simp only [replay, fieldTurn, now, Except.map]
    · simp only [occurrences, cut, alone, List.map_cons]
    · simp only [cut, alone]
  | error fault =>
    rw [now] at same
    refine .inr ⟨fault, rfl, ?_, ?_⟩
    · simp only [replay, fieldTurn, now, Except.map]
    · cases alone : arms tag offset start (tag :: rest) with
      | ok result =>
        rw [alone] at same
        cases same
      | error other =>
        rw [alone] at same
        cases same
        simp only [cut, alone]

/-- What the loop gets through is cut into its fields as if each of them were the first. -/
theorem cut_field (uniform : ∀ tag, Uniform start (arms tag)) (fuel offset : Nat) (state : State)
    (tag : UInt8) (rest : Bytes) (next : State) (taken : Nat)
    (now : arms tag offset state (tag :: rest) = .ok (next, taken)) :
    (cut arms start (fuel + 1) offset (tag :: rest)).fields = (tag, rest.take (taken - 1)) ::
      (cut arms start fuel (offset + taken) ((tag :: rest).drop taken)).fields := by
  have same := (uniform tag offset state (tag :: rest)).resolve_left (by rw [now]; rintro ⟨_, ⟨⟩⟩)
  rw [now] at same
  obtain ⟨⟨alone, size⟩, first, equal⟩ := map_ok same.symm
  cases equal
  simp only [cut, first]

theorem spelled_cut (uniform : ∀ tag, Uniform start (arms tag))
    (takes : ∀ tag offset state rest next taken,
      arms tag offset state (tag :: rest) = .ok (next, taken) → 1 ≤ taken)
    (fuel offset : Nat) (state : State) (bytes : Bytes) (stop : Nat) (final : State)
    (replayed : replay (fieldTurn arms) fuel (offset, state) bytes = some (.ok (stop, final))) :
    spelled (cut arms start fuel offset bytes).fields = bytes := by
  induction fuel generalizing offset state bytes with
  | zero => cases replayed
  | succ fuel ih =>
    cases bytes with
    | nil => rfl
    | cons tag rest =>
      obtain ⟨next, taken, now, later⟩ := replay_field replayed
      obtain ⟨less, rfl⟩ := Nat.exists_eq_add_of_le (takes _ _ _ _ _ _ now)
      rw [cut_field uniform fuel offset state tag rest next _ now]
      change tag :: (rest.take (1 + less - 1) ++ spelled _) = _
      rw [ih _ _ _ later, Nat.add_sub_cancel_left, Nat.add_comm, List.drop_succ_cons,
        List.take_append_drop]

/-- One turn: the field is refused, or the loop goes on as if the field were the first, or the
field cannot be read on its own either. -/
theorem turn_cases (uniform : ∀ tag, Uniform start (arms tag)) (fuel offset : Nat) (state : State)
    (tag : UInt8) (rest : Bytes) :
    (∃ reason, replay (fieldTurn arms) (fuel + 1) (offset, state) (tag :: rest) =
        some (.error (.error reason))) ∨
      (∃ next taken, arms tag offset state (tag :: rest) = .ok (next, taken) ∧
        replay (fieldTurn arms) (fuel + 1) (offset, state) (tag :: rest) =
          replay (fieldTurn arms) fuel (offset + taken, next) ((tag :: rest).drop taken) ∧
        occurrences arms start (fuel + 1) offset (tag :: rest) =
          tag :: occurrences arms start fuel (offset + taken) ((tag :: rest).drop taken) ∧
        (cut arms start (fuel + 1) offset (tag :: rest)).obstacle =
          (cut arms start fuel (offset + taken) ((tag :: rest).drop taken)).obstacle) ∨
      (∃ fault, ¬ Refused (arms tag offset state (tag :: rest)) ∧
        replay (fieldTurn arms) (fuel + 1) (offset, state) (tag :: rest) = some (.error fault) ∧
        cut arms start (fuel + 1) offset (tag :: rest) = ⟨[(tag, rest)], some fault⟩) := by
  by_cases given : Refused (arms tag offset state (tag :: rest))
  · obtain ⟨reason, now⟩ := given
    refine .inl ⟨reason, ?_⟩
    simp only [replay, fieldTurn, now, Except.map]
  · have same := (uniform tag offset state (tag :: rest)).resolve_left given
    obtain goes | ⟨fault, now, failed, alone⟩ := turn_alike fuel offset state tag rest same
    · exact .inr (.inl goes)
    · exact .inr (.inr ⟨fault, given, failed, alone⟩)

theorem occurrences_head (fuel offset : Nat) (tag : UInt8) (rest : Bytes) :
    tag ∈ occurrences arms start (fuel + 1) offset (tag :: rest) := by
  cases alone : arms tag offset start (tag :: rest) with
  | ok result => simp [occurrences, cut, alone]
  | error fault => simp [occurrences, cut, alone]

variable (guard : Guard arms start full fills refused)

include guard

theorem Guard.refuses_full (fuel offset : Nat) (state : State) (bytes : Bytes) (held : full state)
    (tag : UInt8) (barred : tag ∈ refused)
    (occurs : tag ∈ occurrences arms start fuel offset bytes) :
    ∃ reason, replay (fieldTurn arms) fuel (offset, state) bytes =
      some (.error (.error reason)) := by
  induction fuel generalizing offset state bytes with
  | zero => cases occurs
  | succ fuel ih =>
    cases bytes with
    | nil => cases occurs
    | cons first rest =>
      rcases turn_cases guard.uniform fuel offset state first rest with
        failed | ⟨next, taken, now, goes, parts, _⟩ | ⟨fault, fine, _, alone⟩
      · exact failed
      · rw [parts] at occurs
        cases occurs with
        | head =>
          obtain ⟨reason, refusal⟩ := guard.refuses tag barred offset state _ held
          rw [now] at refusal
          cases refusal
        | tail _ later =>
          rw [goes]
          exact ih _ _ _ (guard.keeps _ _ _ _ _ _ now (.inl held)) later
      · rw [occurrences, alone, List.map_singleton, List.mem_singleton] at occurs
        subst occurs
        exact absurd (guard.refuses _ barred offset state _ held) fine

theorem Guard.refuses_behind (fuel offset : Nat) (state : State) (bytes : Bytes) (tag other : UInt8)
    (filling : tag ∈ fills) (barred : other ∈ refused)
    (occur : [tag, other].Sublist (occurrences arms start fuel offset bytes)) :
    ∃ reason, replay (fieldTurn arms) fuel (offset, state) bytes =
      some (.error (.error reason)) := by
  induction fuel generalizing offset state bytes with
  | zero => cases occur
  | succ fuel ih =>
    cases bytes with
    | nil => cases occur
    | cons first rest =>
      rcases turn_cases guard.uniform fuel offset state first rest with
        failed | ⟨next, taken, now, goes, parts, _⟩ | ⟨_, _, _, alone⟩
      · exact failed
      · rw [parts] at occur
        rw [goes]
        cases occur with
        | cons _ later => exact ih _ _ _ later
        -- This is the field that fills the state; the other one is still to come.
        | cons_cons _ later =>
          have inside := List.singleton_sublist.mp later
          exact guard.refuses_full _ _ _ _ (guard.keeps _ _ _ _ _ _ now (.inr filling))
            other barred inside
      · rw [occurrences, alone] at occur
        have short := occur.length_le
        simp at short

theorem Guard.scan_behind (bytes : Bytes) (tag other : UInt8) (filling : tag ∈ fills)
    (barred : other ∈ refused) (occur : [tag, other].Sublist (tagsIn arms start bytes)) :
    Refused (scan arms start bytes) := by
  obtain ⟨reason, failed⟩ := guard.refuses_behind _ 0 start bytes tag other filling barred occur
  refine ⟨reason, ?_⟩
  rw [scan, failed]
  rfl

end Loop

section Outcome

variable {arms : UInt8 → Arm Error State} {start : State}

structure Bar (State : Type) where
  full : State → Bool
  filling : UInt8
  refused : UInt8

structure Tracks (arms : UInt8 → Arm Error State) (start : State) (full : State → Bool)
    (tag : UInt8) : Prop where
  fresh : full start = false
  fills : ∀ other offset state bytes next taken,
    arms other offset state bytes = .ok (next, taken) → full next = (full state || other == tag)

structure Bars (arms : UInt8 → Arm Error State) (start : State) (bars : List (Bar State)) :
    Prop where
  tracks : ∀ bar ∈ bars, Tracks arms start bar.full bar.filling
  refuses : ∀ bar ∈ bars, ∀ offset state bytes, bar.full state = true →
    Refused (arms bar.refused offset state bytes)
  free : ∀ tag offset state bytes, (∀ bar ∈ bars, bar.refused = tag → bar.full state = false) →
    (arms tag offset state bytes).map Prod.snd = (arms tag offset start bytes).map Prod.snd

theorem tracks_of {full : State → Bool} {tag : UInt8} (fresh : full start = false)
    (own : ∀ offset state bytes next taken, arms tag offset state bytes = .ok (next, taken) →
      full next = true)
    (others : ∀ other offset state bytes next taken, other ≠ tag →
      arms other offset state bytes = .ok (next, taken) → full next = full state) :
    Tracks arms start full tag where
  fresh := fresh
  fills other offset state bytes next taken now := by
    by_cases same : other = tag
    · subst same
      rw [own _ _ _ _ _ now, beq_self_eq_true, Bool.or_true]
    · rw [others _ _ _ _ _ _ same now, beq_false_of_ne same, Bool.or_false]

theorem Tracks.replayed {full : State → Bool} {tag : UInt8} (tracks : Tracks arms start full tag)
    (uniform : ∀ tag, Uniform start (arms tag)) (fuel offset : Nat) (state : State) (bytes : Bytes)
    (stop : Nat) (final : State)
    (reads : replay (fieldTurn arms) fuel (offset, state) bytes = some (.ok (stop, final))) :
    full final = (full state || (occurrences arms start fuel offset bytes).contains tag) := by
  induction fuel generalizing offset state bytes with
  | zero => cases reads
  | succ fuel ih =>
    cases bytes with
    | nil =>
      cases reads
      exact (Bool.or_false _).symm
    | cons first rest =>
      rcases turn_cases uniform fuel offset state first rest with
        ⟨reason, failed⟩ | ⟨next, taken, now, goes, parts, _⟩ | ⟨fault, _, failed, _⟩
      · rw [failed] at reads
        cases reads
      · rw [goes] at reads
        rw [ih _ _ _ reads, tracks.fills _ _ _ _ _ _ now, parts, List.contains_cons,
          Bool.or_assoc, Bool.beq_comm]
      · rw [failed] at reads
        cases reads

theorem Tracks.scanned {full : State → Bool} {tag : UInt8} (tracks : Tracks arms start full tag)
    (uniform : ∀ tag, Uniform start (arms tag)) {bytes : Bytes} {stop : Nat} {final : State}
    (reads : scan arms start bytes = .ok (stop, final)) :
    full final = true ↔ tag ∈ tagsIn arms start bytes := by
  rw [tracks.replayed uniform _ _ _ _ _ _ (replay_of_scan reads), tracks.fresh, Bool.false_or,
    List.contains_iff_mem]
  rfl

/-- Apart from being refused for what was read before, the loop ends at the first field that
cannot be read, and with its reason. -/
theorem outcome_cases (uniform : ∀ tag, Uniform start (arms tag)) (fuel offset : Nat)
    (state : State) (bytes : Bytes) :
    Refused ((replay (fieldTurn arms) fuel (offset, state) bytes).getD (.error .stuck)) ∨
      match (cut arms start fuel offset bytes).obstacle with
      | some fault =>
        (replay (fieldTurn arms) fuel (offset, state) bytes).getD (.error .stuck) = .error fault
      | none => ∃ result,
          (replay (fieldTurn arms) fuel (offset, state) bytes).getD (.error .stuck) =
            .ok result := by
  induction fuel generalizing offset state bytes with
  | zero => exact .inr rfl
  | succ fuel ih =>
    cases bytes with
    | nil => exact .inr ⟨_, rfl⟩
    | cons first rest =>
      rcases turn_cases uniform fuel offset state first rest with
        ⟨reason, failed⟩ | ⟨next, taken, _, goes, _, ends⟩ | ⟨fault, _, failed, alone⟩
      · rw [failed]
        exact .inl ⟨reason, rfl⟩
      · rw [goes, ends]
        exact ih _ _ _
      · rw [failed, alone]
        exact .inr rfl

theorem scan_clear (uniform : ∀ tag, Uniform start (arms tag)) {bytes : Bytes}
    (fine : ¬ Refused (scan arms start bytes)) (clear : obstacle arms start bytes = none) :
    ∃ result, scan arms start bytes = .ok result := by
  have ends := (outcome_cases uniform (bytes.length + 1) 0 start bytes).resolve_left fine
  rwa [← obstacle, clear] at ends

theorem obstacle_of_scan (uniform : ∀ tag, Uniform start (arms tag)) {bytes : Bytes}
    {result : Nat × State} (reads : scan arms start bytes = .ok result) :
    obstacle arms start bytes = none := by
  have fine : ¬ Refused (scan arms start bytes) := by
    rintro ⟨reason, failed⟩
    rw [reads] at failed
    cases failed
  have ends := (outcome_cases uniform (bytes.length + 1) 0 start bytes).resolve_left fine
  rw [← obstacle] at ends
  cases found : obstacle arms start bytes with
  | none => rfl
  | some fault =>
    rw [found] at ends
    exact absurd (reads.symm.trans ends) (by simp)

theorem replay_of_refused {bytes : Bytes} {reason : Error}
    (failed : scan arms start bytes = .error (.error reason)) :
    replay (fieldTurn arms) (bytes.length + 1) (0, start) bytes =
      some (.error (.error reason)) := by
  rw [scan] at failed
  cases replayed : replay (fieldTurn arms) (bytes.length + 1) (0, start) bytes with
  | none =>
    rw [replayed] at failed
    cases failed
  | some result =>
    rw [replayed, Option.getD_some] at failed
    rw [failed]

section Exact

variable {bars : List (Bar State)} (only : Bars arms start bars)

include only

theorem Bars.uniform (tag : UInt8) : Uniform start (arms tag) := by
  intro offset state bytes
  by_cases barred : ∃ bar ∈ bars, bar.refused = tag ∧ bar.full state = true
  · obtain ⟨bar, inside, rfl, full⟩ := barred
    exact .inl (only.refuses bar inside offset state bytes full)
  · refine .inr (only.free tag offset state bytes fun bar inside same => ?_)
    exact Bool.eq_false_iff.mpr fun full => barred ⟨bar, inside, same, full⟩

theorem Bars.guard {bar : Bar State} (inside : bar ∈ bars) :
    Guard arms start (fun state => bar.full state = true) [bar.filling] [bar.refused] where
  uniform := only.uniform
  keeps tag offset state bytes next taken now given := by
    rw [(only.tracks bar inside).fills _ _ _ _ _ _ now, Bool.or_eq_true, beq_iff_eq]
    exact given.imp_right List.mem_singleton.mp
  refuses tag barred offset state bytes full := by
    rw [List.mem_singleton.mp barred]
    exact only.refuses bar inside offset state bytes full

theorem Bars.barred_of_refused (fuel offset : Nat) (state : State) (bytes : Bytes) (reason : Error)
    (failed : replay (fieldTurn arms) fuel (offset, state) bytes = some (.error (.error reason))) :
    (∃ bar ∈ bars, bar.full state = true ∧
        bar.refused ∈ occurrences arms start fuel offset bytes ∨
      [bar.filling, bar.refused].Sublist (occurrences arms start fuel offset bytes)) ∨
      (cut arms start fuel offset bytes).obstacle = some (.error reason) := by
  induction fuel generalizing offset state bytes with
  | zero => cases failed
  | succ fuel ih =>
    cases bytes with
    | nil => cases failed
    | cons tag rest =>
      by_cases barred : ∃ bar ∈ bars, bar.refused = tag ∧ bar.full state = true
      · obtain ⟨bar, inside, rfl, full⟩ := barred
        exact .inl ⟨bar, inside, .inl ⟨full, occurrences_head fuel offset _ rest⟩⟩
      · have free := only.free tag offset state (tag :: rest) fun bar inside same =>
          Bool.eq_false_iff.mpr fun full => barred ⟨bar, inside, same, full⟩
        obtain ⟨next, taken, now, goes, parts, ends⟩ | ⟨fault, _, ended, alone⟩ :=
          turn_alike fuel offset state tag rest free
        · rw [goes] at failed
          rw [parts, ends]
          refine (ih _ _ _ failed).imp_left ?_
          rintro ⟨bar, inside, ⟨full, later⟩ | later⟩
          · -- It was full before, or this field has filled it.
            rw [(only.tracks bar inside).fills _ _ _ _ _ _ now, Bool.or_eq_true,
              beq_iff_eq] at full
            obtain before | rfl := full
            · exact ⟨bar, inside, .inl ⟨before, .tail _ later⟩⟩
            · exact ⟨bar, inside, .inr ((List.singleton_sublist.mpr later).cons_cons _)⟩
          · exact ⟨bar, inside, .inr (later.cons _)⟩
        · rw [ended, Option.some.injEq, Except.error.injEq] at failed
          rw [alone, failed]
          exact .inr rfl

/-- An error is returned exactly if a field stands behind one that bars it, or a field cannot
be read and its reading says so. -/
theorem Bars.scan_refused_iff (bytes : Bytes) :
    Refused (scan arms start bytes) ↔
      (∃ bar ∈ bars, [bar.filling, bar.refused].Sublist (tagsIn arms start bytes)) ∨
        ∃ reason, obstacle arms start bytes = some (.error reason) := by
  constructor
  · rintro ⟨reason, failed⟩
    obtain ⟨bar, inside, ⟨full, _⟩ | behind⟩ | ends :=
      only.barred_of_refused _ _ _ _ reason (replay_of_refused failed)
    · rw [(only.tracks bar inside).fresh] at full
      cases full
    · exact .inl ⟨bar, inside, behind⟩
    · exact .inr ⟨reason, ends⟩
  · rintro (⟨bar, inside, behind⟩ | ⟨reason, ends⟩)
    · exact (only.guard inside).scan_behind bytes _ _ (.head _) (.head _) behind
    · obtain refused | stops := outcome_cases only.uniform (bytes.length + 1) 0 start bytes
      · exact refused
      · rw [← obstacle, ends] at stops
        exact ⟨reason, stops⟩

end Exact

end Outcome

theorem sublist_of_countP {Item : Type} {good : Item → Bool} {items : List Item}
    (twice : 2 ≤ items.countP good) :
    ∃ first second, good first = true ∧ good second = true ∧ [first, second].Sublist items := by
  rw [List.countP_eq_length_filter] at twice
  have sublist := List.filter_sublist (l := items) (p := good)
  have all : ∀ item ∈ items.filter good, good item = true := fun _ inside =>
    (List.mem_filter.mp inside).2
  match found : items.filter good with
  | [] => simp [found] at twice
  | [_] => simp [found] at twice
  | first :: second :: rest =>
    rw [found] at sublist all
    refine ⟨first, second, all _ (.head _), all _ (.tail _ (.head _)), ?_⟩
    exact ((List.nil_sublist rest).cons_cons second).cons_cons first |>.trans sublist

theorem twice_iff_sublist (tag : UInt8) (tags : List UInt8) :
    2 ≤ tags.countP (· ∈ [tag]) ↔ [tag, tag].Sublist tags := by
  have counts : tags.countP (· ∈ [tag]) = tags.count tag :=
    List.countP_congr fun other _ => by simp
  rw [counts]
  exact List.replicate_sublist_iff.symm

theorem Guard.scan_twice {arms : UInt8 → Arm Error State} {start : State} {full : State → Prop}
    {group : List UInt8} (guard : Guard arms start full group group) (bytes : Bytes)
    (twice : 2 ≤ (tagsIn arms start bytes).countP (· ∈ group)) :
    Refused (scan arms start bytes) := by
  obtain ⟨first, second, one, other, occur⟩ := sublist_of_countP twice
  exact guard.scan_behind bytes first second (of_decide_eq_true one) (of_decide_eq_true other) occur

section Regular

variable {slot : Slot State Value} {read : Read Error Value} {skip : Skip Error}
  {arm : Arm Error State} {duplicate : Error} {fulls : List (State → Bool)} {start : State}

def Slot.full (slot : Slot State Value) (state : State) : Bool := (slot.held state).isSome

def Extends (fulls : List (State → Bool)) (state next : State) : Prop :=
  fulls.Forall fun full => full state = true → full next = true

theorem extends_refl (fulls : List (State → Bool)) (state : State) : Extends fulls state state :=
  List.forall_iff_forall_mem.mpr fun _ _ held => held

/-- An arm that reads its field in the same way whatever it has read before, and empties no
place. -/
structure Regular (fulls : List (State → Bool)) (start : State) (arm : Arm Error State) : Prop where
  uniform : Uniform start arm
  extend : ∀ offset state bytes next taken, arm offset state bytes = .ok (next, taken) →
    Extends fulls state next

theorem latest_alike (offset : Nat) (state other : State) (bytes : Bytes) :
    (latest slot read offset state bytes).map Prod.snd =
      (latest slot read offset other bytes).map Prod.snd := by
  unfold latest
  cases read bytes.tail with
  | error fault => rfl
  | ok result => rfl

theorem unlessHeld_alike {offset : Nat} {state : State} {bytes : Bytes}
    (fresh : slot.held start = none) (empty : slot.full state = false)
    (alike : (arm offset state bytes).map Prod.snd = (arm offset start bytes).map Prod.snd) :
    (unlessHeld slot duplicate arm offset state bytes).map Prod.snd =
      (unlessHeld slot duplicate arm offset start bytes).map Prod.snd := by
  rw [Slot.full, Option.isSome_eq_false_iff, Option.isNone_iff_eq_none] at empty
  simp only [unlessHeld, fresh, empty]
  exact alike

theorem spread_alike {slot : Slot State (Nat × Nat)} (offset : Nat) (state other : State)
    (bytes : Bytes) :
    (spread slot skip offset state bytes).map Prod.snd =
      (spread slot skip offset other bytes).map Prod.snd := by
  unfold spread
  cases skip bytes with
  | error fault => rfl
  | ok taken => rfl

theorem pass_alike (offset : Nat) (state other : State) (bytes : Bytes) :
    (pass skip offset state bytes).map Prod.snd = (pass skip offset other bytes).map Prod.snd := by
  unfold pass
  cases skip bytes with
  | error fault => rfl
  | ok taken => rfl

theorem regular_latest (grows : ∀ state value, Extends fulls state (slot.put state (some value))) :
    Regular fulls start (latest slot read) where
  uniform offset state bytes := .inr (latest_alike offset state start bytes)
  extend offset state bytes next taken now := by
    obtain ⟨_, value, _, rfl, _⟩ := latest_ok now
    exact grows state value

theorem regular_unlessHeld (fresh : slot.held start = none) (regular : Regular fulls start arm) :
    Regular fulls start (unlessHeld slot duplicate arm) where
  uniform offset state bytes := by
    cases held : slot.held state with
    | some value =>
      refine .inl ⟨duplicate, ?_⟩
      simp only [unlessHeld, held]
    | none =>
      simp only [unlessHeld, held, fresh]
      exact regular.uniform offset state bytes
  extend offset state bytes next taken now :=
    regular.extend offset state bytes next taken (unlessHeld_ok now).2

theorem regular_once (fresh : slot.held start = none)
    (grows : ∀ state value, Extends fulls state (slot.put state (some value))) :
    Regular fulls start (once slot duplicate read) :=
  regular_unlessHeld fresh (regular_latest grows)

theorem regular_spread {slot : Slot State (Nat × Nat)}
    (grows : ∀ state value, Extends fulls state (slot.put state (some value))) :
    Regular fulls start (spread slot skip) where
  uniform offset state bytes := .inr (spread_alike offset state start bytes)
  extend offset state bytes next taken now := by
    obtain ⟨size, _, equal⟩ := map_ok now
    cases equal
    exact grows state _

theorem regular_ite {chosen : Prop} [Decidable chosen] {arm other : Arm Error State}
    (here : Regular fulls start arm) (behind : Regular fulls start other) :
    Regular fulls start (if chosen then arm else other) :=
  iteInduction (fun _ => here) fun _ => behind

theorem regular_pass : Regular fulls start (pass skip) where
  uniform offset state bytes := .inr (pass_alike offset state start bytes)
  extend offset state bytes next taken now := by
    rw [(pass_ok now).1]
    exact extends_refl fulls state

theorem unlessHeld_refuses (offset : Nat) {state : State} (bytes : Bytes)
    (held : slot.full state = true) :
    Refused (unlessHeld slot duplicate arm offset state bytes) := by
  obtain ⟨value, given⟩ := Option.isSome_iff_exists.mp held
  refine ⟨duplicate, ?_⟩
  simp only [unlessHeld, given]

variable {arms : UInt8 → Arm Error State}

/-- A place guards the fields of these tags: each of them fills it and is refused while it is
filled. -/
theorem guard_slot (regular : ∀ tag, Regular fulls start (arms tag)) (inside : slot.full ∈ fulls)
    (group : List UInt8)
    (arm : ∀ tag ∈ group, ∃ duplicate arm, arms tag = unlessHeld slot duplicate arm ∧
      ∀ offset state bytes next taken, arm offset state bytes = .ok (next, taken) →
        slot.full next = true) :
    Guard arms start (fun state => slot.full state = true) group group where
  uniform tag := (regular tag).uniform
  keeps tag offset state bytes next taken now given := by
    rcases given with held | filling
    · exact List.forall_iff_forall_mem.mp ((regular tag).extend _ _ _ _ _ now) _ inside held
    · obtain ⟨duplicate, arm, same, fills⟩ := arm tag filling
      rw [same] at now
      exact fills _ _ _ _ _ (unlessHeld_ok now).2
  refuses tag barred offset state bytes held := by
    obtain ⟨duplicate, arm, same, _⟩ := arm tag barred
    rw [same]
    exact unlessHeld_refuses offset bytes held

theorem latest_fills (offset : Nat) (state : State) (bytes : Bytes) (next : State) (taken : Nat)
    (now : latest slot read offset state bytes = .ok (next, taken)) : slot.full next = true := by
  obtain ⟨_, value, _, rfl, _⟩ := latest_ok now
  rw [Slot.full, slot.held_put]
  rfl

theorem guard_once (regular : ∀ tag, Regular fulls start (arms tag)) (inside : slot.full ∈ fulls)
    {tag : UInt8} (arm : arms tag = once slot duplicate read) :
    Guard arms start (fun state => slot.full state = true) [tag] [tag] := by
  refine guard_slot regular inside [tag] ?_
  intro other same
  rw [List.mem_singleton.mp same]
  exact ⟨duplicate, latest slot read, arm, latest_fills⟩

section Places

variable {fields : List (List UInt8)}

def Guarded (arms : UInt8 → Arm Error State) (start : State) (field : List UInt8) : Prop :=
  ∃ full, Guard arms start full field field

/-- The field has one tag, whose arm fills this place once. -/
def Held (arms : UInt8 → Arm Error State) (full : State → Bool) (field : List UInt8) : Prop :=
  ∃ (Value : Type) (slot : Slot State Value) (tag : UInt8) (duplicate : Error)
    (read : Read Error Value),
    full = slot.full ∧ field = [tag] ∧ arms tag = once slot duplicate read

theorem Held.of {tag : UInt8} (arm : arms tag = once slot duplicate read) :
    Held arms slot.full [tag] :=
  ⟨Value, slot, tag, duplicate, read, rfl, rfl, arm⟩

theorem guarded_places (regular : ∀ tag, Regular fulls start (arms tag))
    (all : List.Forall₂ (Held arms) fulls fields) :
    ∀ field ∈ fields, Guarded arms start field := by
  have within : ∀ some, some ⊆ fulls → List.Forall₂ (Held arms) some fields →
      ∀ field ∈ fields, Guarded arms start field := by
    clear all
    intro some inside all
    induction all with
    | nil => exact fun _ none => nomatch none
    | cons first _ ih =>
      intro field among
      cases among with
      | head =>
        obtain ⟨_, slot, tag, duplicate, read, rfl, rfl, arm⟩ := first
        exact ⟨_, guard_once regular (inside (.head _)) arm⟩
      | tail _ later => exact ih (fun _ among => inside (.tail _ among)) field later
  exact within fulls (List.Subset.refl fulls) all

end Places

end Regular

theorem refused_bind {outcome : Except (Fault Error) State} (refused : Refused outcome)
    (next : State → Except (Fault Error) Result) : Refused (outcome >>= next) := by
  obtain ⟨reason, rfl⟩ := refused
  exact ⟨reason, rfl⟩

theorem refused_bind_iff (outcome : Except (Fault Error) State)
    (next : State → Except (Fault Error) Result) :
    Refused (outcome >>= next) ↔
      Refused outcome ∨ ∃ result, outcome = .ok result ∧ Refused (next result) := by
  cases outcome with
  | error fault => simp [Refused, bind, Except.bind]
  | ok result => simp [Refused, bind, Except.bind]

theorem Guarded.refuses {arms : UInt8 → Arm Error State} {start : State} {field : List UInt8}
    (guarded : Guarded arms start field) (finish : Nat × State → Except (Fault Error) Result)
    (bytes : Bytes) (twice : 2 ≤ (tagsIn arms start bytes).countP (· ∈ field)) :
    Refused (scan arms start bytes >>= finish) := by
  obtain ⟨full, guard⟩ := guarded
  exact refused_bind (guard.scan_twice bytes twice) finish

end Serf.Library.Fields
