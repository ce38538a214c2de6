import Serf.Library.Machine
import Serf.QueryHandler

/-!
Acceptance of queries over whole runs. Every time in the query ring lies behind
the clock, so a slot is only taken over by a later time of its residue class,
and what it forgets is by then too old to be admitted again.
-/

namespace Serf.QueryDedup

open Library.Machine Library.Window Library.Slots LamportClock QueryHandler

variable {Id Address : Type} [DecidableEq Id]

/-- The slot of the time holds this time and has recorded the id. -/
def Holds (core : QueryCore) (ltime : LamportTime) (id : UInt32) : Prop :=
  ∃ seen, readSlot core.buffer ltime = some (some seen) ∧ seen.ltime = ltime ∧ id ∈ seen.queryIds

def Admissible (curTime ltime : LamportTime) (core : QueryCore) : Prop :=
  core.minTime ≤ ltime ∧ InWindow curTime (size core.buffer) ltime

def keptIds (core : QueryCore) (ltime : LamportTime) : List UInt32 :=
  match readSlot core.buffer ltime with
  | some (some seen) => if seen.ltime = ltime then seen.queryIds else []
  | _ => []

theorem mem_keptIds (core : QueryCore) (ltime : LamportTime) (id : UInt32) :
    id ∈ keptIds core ltime ↔ Holds core ltime id := by
  unfold keptIds Holds
  split
  · rename_i seen held
    rw [held]
    by_cases same : seen.ltime = ltime <;> simp [same]
  · rename_i empty
    constructor
    · simp
    · rintro ⟨seen, held, _⟩
      exact absurd held (empty seen)

theorem recordQuery_refused (curTime ltime : LamportTime) (id : UInt32) (core : QueryCore)
    (refused : ¬ Admissible curTime ltime core) :
    recordQuery curTime ltime id core = some (core, false) := by
  rw [recordQuery]
  by_cases early : ltime < core.minTime
  · rw [if_pos early]
  · have old : TooOld curTime (size core.buffer) ltime := by
      by_contra young
      exact refused ⟨le_of_not_gt early, (inWindow_iff _ _ _).mpr young⟩
    rw [if_neg early, if_pos old]

theorem recordQuery_seen (curTime ltime : LamportTime) (id : UInt32) (core : QueryCore)
    (held : Holds core ltime id) : recordQuery curTime ltime id core = some (core, false) := by
  obtain ⟨seen, found, same, member⟩ := held
  rw [recordQuery]
  -- The two window checks return what the duplicate check returns.
  split
  · rfl
  split
  · rfl
  rw [found]
  simp [same, member]

theorem recordQuery_fresh (curTime ltime : LamportTime) (id : UInt32) (core : QueryCore)
    (positive : size core.buffer ≠ 0) (admitted : Admissible curTime ltime core)
    (unseen : ¬ Holds core ltime id) :
    recordQuery curTime ltime id core =
      some ({ core with
        buffer := writeSlot core.buffer ltime ⟨ltime, keptIds core ltime ++ [id]⟩ }, true) := by
  have young := (inWindow_iff _ _ _).mp admitted.2
  obtain ⟨held, found⟩ := readSlot_defined core.buffer ltime positive
  rw [← mem_keptIds] at unseen
  rw [recordQuery, if_neg (not_lt_of_ge admitted.1), if_neg young, found]
  unfold keptIds at unseen ⊢
  rw [found] at unseen ⊢
  cases held with
  | none => rfl
  | some seen =>
    by_cases same : seen.ltime = ltime
    · simp only [same, ↓reduceIte] at unseen ⊢
      rw [if_neg unseen]
    · simp [same]

theorem not_admissible_empty (curTime ltime : LamportTime) (core : QueryCore)
    (empty : size core.buffer = 0) (passed : ltime < curTime) :
    ¬ Admissible curTime ltime core := by
  rintro ⟨_, inside⟩
  rw [empty, inWindow_iff] at inside
  exact inside (tooOld_empty curTime ltime passed)

/-- The invariant of the query store: a slot holds a time of its own residue
class that the clock has passed. -/
structure Dated (state : QueryState) : Prop where
  placed : ∀ (i : Nat) (seen : Queries), state.core.buffer.slots[i]? = some (some seen) →
    index state.core.buffer seen.ltime = i
  behind : ∀ (i : Nat) (seen : Queries), state.core.buffer.slots[i]? = some (some seen) →
    seen.ltime < state.clock

theorem handleQuery_state (env : QueryEnvironment Id Address) (ty : Option (InternalQueryEvent Id))
    (q : QueryInput Id Address) (state : QueryState) (core : QueryCore) (recorded : Bool)
    (result : recordQuery (witness state.clock q.ltime) q.ltime q.id state.core =
      some (core, recorded)) :
    (handleQuery env ty q state).state = ⟨witness state.clock q.ltime, core⟩ ∧
    (handleQuery env ty q state).recorded = recorded ∧
    (handleQuery env ty q state).returned ≠ none := by
  simp only [handleQuery, result]
  cases recorded with
  | false => exact ⟨rfl, rfl, by simp⟩
  | true =>
    -- Past the dedup stage no branch touches the store again.
    simp only [processQuery]
    split
    · exact ⟨rfl, rfl, by simp⟩
    · exact ⟨rfl, rfl, by simp⟩
    · split
      · exact ⟨rfl, rfl, by simp⟩
      · exact ⟨rfl, rfl, by simp⟩

/-- What one call of `handle_query` does to the store: it is refused and only
the clock moves, or its id is added to a slot that now holds its time. -/
inductive Recording (state : QueryState) (ltime : LamportTime) (id : UInt32) :
    QueryState → Bool → Prop where
  | refused (reason : ¬ Admissible (witness state.clock ltime) ltime state.core ∨
      Holds state.core ltime id) :
      Recording state ltime id ⟨witness state.clock ltime, state.core⟩ false
  | recorded (positive : size state.core.buffer ≠ 0)
      (admitted : Admissible (witness state.clock ltime) ltime state.core)
      (unseen : ¬ Holds state.core ltime id) :
      Recording state ltime id
        ⟨witness state.clock ltime,
          { state.core with
            buffer := writeSlot state.core.buffer ltime
              ⟨ltime, keptIds state.core ltime ++ [id]⟩ }⟩ true

theorem handleQuery_recording (env : QueryEnvironment Id Address)
    (ty : Option (InternalQueryEvent Id)) (q : QueryInput Id Address) (state : QueryState)
    (bound : q.ltime < u64Max) :
    Recording state q.ltime q.id (handleQuery env ty q state).state
      (handleQuery env ty q state).recorded ∧
    (handleQuery env ty q state).returned ≠ none := by
  by_cases admitted : Admissible (witness state.clock q.ltime) q.ltime state.core
  · by_cases held : Holds state.core q.ltime q.id
    · obtain ⟨after, recorded, returned⟩ := handleQuery_state env ty q state _ _
        (recordQuery_seen _ q.ltime q.id state.core held)
      rw [after, recorded]
      exact ⟨.refused (Or.inr held), returned⟩
    · -- Without slots the age check has already refused the query.
      have positive : size state.core.buffer ≠ 0 := by
        intro empty
        exact not_admissible_empty _ q.ltime state.core empty
          (witness_passes state.clock q.ltime bound) admitted
      obtain ⟨after, recorded, returned⟩ := handleQuery_state env ty q state _ _
        (recordQuery_fresh _ q.ltime q.id state.core positive admitted held)
      rw [after, recorded]
      exact ⟨.recorded positive admitted held, returned⟩
  · obtain ⟨after, recorded, returned⟩ := handleQuery_state env ty q state _ _
      (recordQuery_refused _ q.ltime q.id state.core admitted)
    rw [after, recorded]
    exact ⟨.refused (Or.inl admitted), returned⟩

section Step

variable (state after : QueryState) (ltime : LamportTime) (id : UInt32) (recorded : Bool)

theorem recording_frame (step : Recording state ltime id after recorded) :
    after.clock = witness state.clock ltime ∧ size after.core.buffer = size state.core.buffer ∧
      after.core.minTime = state.core.minTime := by
  cases step with
  | refused _ => exact ⟨rfl, rfl, rfl⟩
  | recorded _ _ _ => exact ⟨rfl, size_writeSlot _ _ _, rfl⟩

theorem recording_dated (bound : ltime < u64Max) (dated : Dated state)
    (step : Recording state ltime id after recorded) : Dated after := by
  have grows := witness_grows state.clock ltime bound
  have passes := witness_passes state.clock ltime bound
  cases step with
  | refused _ =>
    refine ⟨dated.placed, ?_⟩
    intro i seen here
    exact lt_of_lt_of_le (dated.behind i seen here) grows
  | recorded positive _ _ =>
    have inside := index_inside state.core.buffer ltime positive
    constructor
    · intro i seen here
      rw [index_writeSlot]
      simp only [writeSlot, List.getElem?_set, inside, ↓reduceIte] at here
      split at here
      · rename_i same
        cases here
        exact same
      · exact dated.placed i seen here
    · intro i seen here
      simp only [writeSlot, List.getElem?_set, inside, ↓reduceIte] at here
      split at here
      · cases here
        exact passes
      · exact lt_of_lt_of_le (dated.behind i seen here) grows

theorem recording_slot_grows (bound : ltime < u64Max) (dated : Dated state)
    (step : Recording state ltime id after recorded) (i : Nat) (seen : Queries)
    (here : state.core.buffer.slots[i]? = some (some seen)) :
    ∃ later, after.core.buffer.slots[i]? = some (some later) ∧ seen.ltime ≤ later.ltime := by
  cases step with
  | refused _ => exact ⟨seen, here, le_refl _⟩
  | recorded positive admitted _ =>
    have inside := index_inside state.core.buffer ltime positive
    by_cases same : index state.core.buffer ltime = i
    · refine ⟨⟨ltime, keptIds state.core ltime ++ [id]⟩, ?_, ?_⟩
      · simp [writeSlot, ← same, inside]
      · apply window_not_lapped _ _ ltime seen.ltime admitted.2
        · exact lt_of_lt_of_le (dated.behind i seen here)
            (witness_grows state.clock ltime bound)
        · rw [← index_eq_iff, same, dated.placed i seen here]
    · exact ⟨seen, by simp [writeSlot, List.getElem?_set_ne same, here], le_refl _⟩

theorem recording_source (step : Recording state ltime id after recorded)
    (other : LamportTime) (otherId : UInt32) (held : Holds after.core other otherId) :
    Holds state.core other otherId ∨ (ltime = other ∧ id = otherId) := by
  cases step with
  | refused _ => exact Or.inl held
  | recorded positive _ _ =>
    obtain ⟨seen, found, same, member⟩ := held
    rw [readSlot_write state.core.buffer ltime other _ positive] at found
    split at found
    · cases found
      simp only at same member
      subst same
      rcases List.mem_append.mp member with kept | now
      · exact Or.inl ((mem_keptIds state.core ltime otherId).mp kept)
      · exact Or.inr ⟨rfl, (List.mem_singleton.mp now).symm⟩
    · exact Or.inl ⟨seen, found, same, member⟩

theorem recording_holds (step : Recording state ltime id after true) :
    Holds after.core ltime id := by
  cases step with
  | recorded positive _ _ =>
    refine ⟨⟨ltime, keptIds state.core ltime ++ [id]⟩, ?_, rfl, by simp⟩
    rw [readSlot_write state.core.buffer ltime ltime _ positive, if_pos rfl]

theorem recording_evicts (bound : ltime < u64Max) (dated : Dated state)
    (admitted : Admissible (witness state.clock ltime) ltime state.core)
    (other : LamportTime) (otherId : UInt32) (held : Holds state.core other otherId)
    (positive : size state.core.buffer ≠ 0) (different : ltime ≠ other)
    (congruent : ltime % size state.core.buffer = other % size state.core.buffer) :
    TooOld (witness state.clock ltime) (size state.core.buffer) other := by
  obtain ⟨seen, found, same, _⟩ := held
  have slot : state.core.buffer.slots[index state.core.buffer other]? = some (some seen) := by
    simpa [readSlot, positive] using found
  have passed : other < state.clock := same ▸ dated.behind _ seen slot
  have order := window_not_lapped _ _ ltime other admitted.2
    (lt_of_lt_of_le passed (witness_grows state.clock ltime bound)) congruent
  exact tooOld_of_lapped _ _ other ltime (lt_of_le_of_ne order (Ne.symm different))
    (witness_passes state.clock ltime bound) congruent.symm

def Spent (state : QueryState) (ltime : LamportTime) (id : UInt32) : Prop :=
  TooOld state.clock (size state.core.buffer) ltime ∨ Holds state.core ltime id

theorem recording_spent (bound : ltime < u64Max) (dated : Dated state)
    (step : Recording state ltime id after recorded) (other : LamportTime) (otherId : UInt32)
    (spent : Spent state other otherId) : Spent after other otherId := by
  have frame := recording_frame state after ltime id recorded step
  rcases spent with old | held
  · left
    rw [frame.1, frame.2.1]
    exact tooOld_mono _ _ _ _ (witness_grows state.clock ltime bound) old
  · cases step with
    | refused _ => exact Or.inr held
    | recorded positive admitted _ =>
      obtain ⟨seen, found, same, member⟩ := held
      by_cases congruent : ltime % size state.core.buffer = other % size state.core.buffer
      · by_cases equal : ltime = other
        · -- The slot still holds this time: the id is kept.
          subst equal
          refine Or.inr ⟨⟨ltime, keptIds state.core ltime ++ [id]⟩, ?_, rfl, ?_⟩
          · rw [readSlot_write state.core.buffer ltime ltime _ positive, if_pos rfl]
          · exact List.mem_append_left _
              ((mem_keptIds state.core ltime otherId).mpr ⟨seen, found, same, member⟩)
        · left
          rw [frame.1, frame.2.1]
          exact recording_evicts state ltime bound dated admitted other otherId
            ⟨seen, found, same, member⟩ positive equal congruent
      · -- Another slot was written.
        refine Or.inr ⟨seen, ?_, same, member⟩
        rw [readSlot_write state.core.buffer ltime other _ positive, if_neg congruent]
        exact found

theorem recording_refuses (bound : ltime < u64Max)
    (step : Recording state ltime id after recorded) (spent : Spent state ltime id) :
    recorded = false := by
  cases step with
  | refused _ => rfl
  | recorded _ admitted unseen =>
    rcases spent with old | held
    · have young := (inWindow_iff _ _ _).mp admitted.2
      exact absurd (tooOld_mono _ _ _ _ (witness_grows state.clock ltime bound) old) young
    · exact absurd held unseen

theorem recording_accepts (step : Recording state ltime id after recorded)
    (admitted : Admissible (witness state.clock ltime) ltime state.core)
    (unseen : ¬ Holds state.core ltime id) : recorded = true := by
  cases step with
  | recorded _ _ _ => rfl
  | refused reason =>
    rcases reason with refused | held
    · exact absurd admitted refused
    · exact absurd held unseen

end Step

section Run

variable (env : QueryEnvironment Id Address)

theorem queryStep_recording (state : QueryState)
    (op : QueryInput Id Address × Option (InternalQueryEvent Id)) (bound : op.1.ltime < u64Max) :
    Recording state op.1.ltime op.1.id (queryStep env state op).1
      (queryStep env state op).2.recorded :=
  (handleQuery_recording env op.2 op.1 state bound).1

theorem queryStep_dated (state : QueryState)
    (op : QueryInput Id Address × Option (InternalQueryEvent Id)) (bound : op.1.ltime < u64Max)
    (dated : Dated state) : Dated (queryStep env state op).1 :=
  recording_dated _ _ _ _ _ bound dated (queryStep_recording env state op bound)

def accepts (ltime : LamportTime) (id : UInt32)
    (op : QueryInput Id Address × Option (InternalQueryEvent Id))
    (outcome : QueryOutcome Id Address) : Bool :=
  outcome.recorded && decide (op.1.ltime = ltime) && decide (op.1.id = id)

theorem accepted_at_most_once (start : QueryState)
    (ops : List (QueryInput Id Address × Option (InternalQueryEvent Id))) (dated : Dated start)
    (bounded : ∀ op ∈ ops, op.1.ltime < u64Max) (ltime : LamportTime) (id : UInt32) :
    (answers (queryStep env) start ops).countP
      (fun entry => accepts ltime id entry.1 entry.2) ≤ 1 := by
  apply hits_at_most_once (queryStep env) (fun op => op.1.ltime < u64Max) Dated
    (fun state => Spent state ltime id) (accepts ltime id)
  · exact queryStep_dated env
  · -- A spent pair stays spent.
    intro state op bound valid spent
    exact recording_spent _ _ _ _ _ bound valid (queryStep_recording env state op bound) _ _ spent
  · -- An accepted pair is spent, being held by its slot.
    intro state op bound _ hit
    have step := queryStep_recording env state op bound
    simp only [accepts, Bool.and_eq_true, decide_eq_true_eq] at hit
    obtain ⟨⟨recorded, rfl⟩, rfl⟩ := hit
    rw [recorded] at step
    exact Or.inr (recording_holds _ _ _ _ step)
  · -- A spent pair is not accepted.
    intro state op bound _ spent
    have step := queryStep_recording env state op bound
    by_contra hit
    simp only [accepts, Bool.and_eq_false_imp, Bool.and_eq_true, decide_eq_true_eq,
      decide_eq_false_iff_not, not_forall, not_not] at hit
    obtain ⟨⟨recorded, rfl⟩, rfl⟩ := hit
    rw [recording_refuses _ _ _ _ _ bound step spent] at recorded
    cases recorded
  · exact bounded
  · exact dated

theorem run_holds (start : QueryState)
    (ops : List (QueryInput Id Address × Option (InternalQueryEvent Id)))
    (bounded : ∀ op ∈ ops, op.1.ltime < u64Max) (ltime : LamportTime) (id : UInt32)
    (held : Holds (run (queryStep env) start ops).core ltime id) :
    Holds start.core ltime id ∨ ∃ op ∈ ops, op.1.ltime = ltime ∧ op.1.id = id := by
  induction ops generalizing start with
  | nil => exact Or.inl held
  | cons op rest ih =>
    have bound := bounded op List.mem_cons_self
    rcases ih _ (fun later member => bounded later (List.mem_cons_of_mem op member)) held with
      before | ⟨later, member, carried⟩
    · rcases recording_source _ _ _ _ _ (queryStep_recording env start op bound) ltime id
        before with old | now
      · exact Or.inl old
      · exact Or.inr ⟨op, List.mem_cons_self, now⟩
    · exact Or.inr ⟨later, List.mem_cons_of_mem op member, carried⟩

theorem run_frame (start : QueryState)
    (ops : List (QueryInput Id Address × Option (InternalQueryEvent Id)))
    (bounded : ∀ op ∈ ops, op.1.ltime < u64Max) :
    size (run (queryStep env) start ops).core.buffer = size start.core.buffer ∧
    (run (queryStep env) start ops).core.minTime = start.core.minTime := by
  apply run_invariant (queryStep env) (fun op => op.1.ltime < u64Max)
    (fun state => size state.core.buffer = size start.core.buffer ∧
      state.core.minTime = start.core.minTime)
  · intro state op bound same
    have frame := recording_frame _ _ _ _ _ (queryStep_recording env state op bound)
    exact ⟨frame.2.1.trans same.1, frame.2.2.trans same.2⟩
  · exact bounded
  · exact ⟨rfl, rfl⟩

theorem run_dated (start : QueryState)
    (ops : List (QueryInput Id Address × Option (InternalQueryEvent Id)))
    (bounded : ∀ op ∈ ops, op.1.ltime < u64Max) (dated : Dated start) :
    Dated (run (queryStep env) start ops) :=
  run_invariant (queryStep env) (fun op => op.1.ltime < u64Max) Dated (queryStep_dated env)
    start ops bounded dated

theorem run_slot_grows (start : QueryState)
    (ops : List (QueryInput Id Address × Option (InternalQueryEvent Id)))
    (bounded : ∀ op ∈ ops, op.1.ltime < u64Max) (dated : Dated start) (i : Nat) (seen : Queries)
    (here : start.core.buffer.slots[i]? = some (some seen)) :
    ∃ later, (run (queryStep env) start ops).core.buffer.slots[i]? = some (some later) ∧
      seen.ltime ≤ later.ltime := by
  induction ops generalizing start seen with
  | nil => exact ⟨seen, here, le_refl _⟩
  | cons op rest ih =>
    have bound := bounded op List.mem_cons_self
    obtain ⟨next, there, grows⟩ := recording_slot_grows _ _ _ _ _ bound dated
      (queryStep_recording env start op bound) i seen here
    obtain ⟨later, found, further⟩ := ih _
      (fun later member => bounded later (List.mem_cons_of_mem op member))
      (queryStep_dated env start op bound dated) next there
    exact ⟨later, found, le_trans grows further⟩

theorem run_returns (start : QueryState)
    (ops : List (QueryInput Id Address × Option (InternalQueryEvent Id)))
    (bounded : ∀ op ∈ ops, op.1.ltime < u64Max) :
    ∀ entry ∈ answers (queryStep env) start ops, entry.2.returned ≠ none := by
  induction ops generalizing start with
  | nil => simp [answers]
  | cons op rest ih =>
    intro entry member
    rcases List.mem_cons.mp member with now | later
    · subst entry
      exact (handleQuery_recording env op.2 op.1 start (bounded op List.mem_cons_self)).2
    · exact ih _ (fun later member => bounded later (List.mem_cons_of_mem op member)) entry later

end Run

def startQueries (clock minTime : LamportTime) (count : Nat) (fits : count < 2 ^ 64) :
    QueryState :=
  ⟨clock, ⟨∅, minTime, vacant count fits⟩⟩

theorem start_dated (clock minTime : LamportTime) (count : Nat) (fits : count < 2 ^ 64) :
    Dated (startQueries clock minTime count fits) := by
  constructor <;> simp [startQueries, vacant, List.getElem?_replicate]

theorem start_holds_nothing (clock minTime : LamportTime) (count : Nat) (fits : count < 2 ^ 64)
    (ltime : LamportTime) (id : UInt32) :
    ¬ Holds (startQueries clock minTime count fits).core ltime id := by
  rintro ⟨seen, found, _⟩
  exact readSlot_vacant count fits ltime seen found

/-- Queries are accepted exactly once inside the window, on rings of any size. -/
theorem queries_accepted_once (env : QueryEnvironment Id Address) (clock minTime : LamportTime)
    (count : Nat) (fits : count < 2 ^ 64)
    (ops : List (QueryInput Id Address × Option (InternalQueryEvent Id)))
    (bounded : ∀ op ∈ ops, op.1.ltime < u64Max) :
    let start := startQueries clock minTime count fits
    (∀ ltime id, (answers (queryStep env) start ops).countP
      (fun entry => accepts ltime id entry.1 entry.2) ≤ 1) ∧
    (∀ before op after, ops = before ++ op :: after →
      (∀ earlier ∈ before, ¬ (earlier.1.ltime = op.1.ltime ∧ earlier.1.id = op.1.id)) →
      minTime ≤ op.1.ltime →
      InWindow (witness (run (queryStep env) start before).clock op.1.ltime)
        (UInt64.ofNat count) op.1.ltime →
      (queryStep env (run (queryStep env) start before) op).2.recorded = true ∧
      Holds (run (queryStep env) start (before ++ [op])).core op.1.ltime op.1.id) ∧
    (∀ before after, ops = before ++ after → ∀ (i : Nat) (seen : Queries),
      (run (queryStep env) start before).core.buffer.slots[i]? = some (some seen) →
      (seen.ltime % UInt64.ofNat count).toNat = i ∧
      ∃ later, (run (queryStep env) start ops).core.buffer.slots[i]? = some (some later) ∧
        seen.ltime ≤ later.ltime) ∧
    (∀ entry ∈ answers (queryStep env) start ops, entry.2.returned ≠ none) := by
  intro start
  have dated := start_dated clock minTime count fits
  have sized : size start.core.buffer = UInt64.ofNat count := size_vacant count fits
  refine ⟨accepted_at_most_once env start ops dated bounded, ?_, ?_,
    run_returns env start ops bounded⟩
  · intro before op after whole first late inside
    have boundedBefore : ∀ earlier ∈ before, earlier.1.ltime < u64Max := by
      intro earlier member
      exact bounded earlier (by rw [whole]; exact List.mem_append_left _ member)
    have bound : op.1.ltime < u64Max := bounded op (by simp [whole])
    have frame := run_frame env start before boundedBefore
    have step := queryStep_recording env (run (queryStep env) start before) op bound
    have passed : (queryStep env (run (queryStep env) start before) op).2.recorded = true := by
      apply recording_accepts _ _ _ _ _ step
      · constructor
        · rw [frame.2]
          exact late
        · rw [frame.1, sized]
          exact inside
      · -- The slot can hold only what an earlier operation of the run carried.
        intro held
        rcases run_holds env start before boundedBefore _ _ held with old | ⟨earlier, member, same⟩
        · exact start_holds_nothing clock minTime count fits _ _ old
        · exact first earlier member same
    refine ⟨passed, ?_⟩
    rw [passed] at step
    rw [run_append]
    exact recording_holds _ _ _ _ step
  · intro before after whole i seen here
    have boundedParts : (∀ op ∈ before, op.1.ltime < u64Max) ∧
        ∀ op ∈ after, op.1.ltime < u64Max := by
      constructor
      · intro op member
        exact bounded op (by rw [whole]; exact List.mem_append_left _ member)
      · intro op member
        exact bounded op (by rw [whole]; exact List.mem_append_right _ member)
    have reached := run_dated env start before boundedParts.1 dated
    constructor
    · have placed := reached.placed i seen here
      rw [index, (run_frame env start before boundedParts.1).1, sized] at placed
      exact placed
    · rw [whole, run_append]
      exact run_slot_grows env _ after boundedParts.2 reached i seen here

def plainQuery (ltime : LamportTime) (id : UInt32) :
    QueryInput String Nat × Option (InternalQueryEvent String) :=
  (.right ⟨ltime, id, ⟨"b", 2⟩, [], 0, 0, 1, "uptime", []⟩, none)

/-- On a ring of one slot the second query evicts the first, whose repetition
is then too old. -/
theorem queries_accepted_once_evicted :
    let ops := [plainQuery 5 7, plainQuery 6 7, plainQuery 5 7]
    (∀ op ∈ ops, op.1.ltime < u64Max) ∧
    (answers (queryStep plainEnvironment) (startQueries 1 0 1 (by decide)) ops).countP
      (fun entry => accepts 5 7 entry.1 entry.2) ≤ 1 :=
  ⟨by decide, (queries_accepted_once plainEnvironment 1 0 1 (by decide)
    [plainQuery 5 7, plainQuery 6 7, plainQuery 5 7] (by decide)).1 5 7⟩

end Serf.QueryDedup
