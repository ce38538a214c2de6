import Mathlib.Data.List.Basic

/-!
Finite runs of a machine that answers every operation it is given. `run` keeps
the state reached, `answers` keeps each operation with the answer it got. The
rules below turn one-step facts into facts about whole runs, so that a model
states what a single step does and never repeats the induction.
-/

namespace Serf.Library.Machine

variable {State Op Answer : Type}

def run (step : State → Op → State × Answer) : State → List Op → State
  | state, [] => state
  | state, op :: rest => run step (step state op).1 rest

def answers (step : State → Op → State × Answer) : State → List Op → List (Op × Answer)
  | _, [] => []
  | state, op :: rest => (op, (step state op).2) :: answers step (step state op).1 rest

/-- Each operation with the state it is applied to. -/
def visits (step : State → Op → State × Answer) : State → List Op → List (State × Op)
  | _, [] => []
  | state, op :: rest => (state, op) :: visits step (step state op).1 rest

theorem run_append (step : State → Op → State × Answer) (state : State) (first second : List Op) :
    run step state (first ++ second) = run step (run step state first) second := by
  induction first generalizing state with
  | nil => rfl
  | cons op rest ih => exact ih (step state op).1

theorem answers_append (step : State → Op → State × Answer) (state : State)
    (first second : List Op) :
    answers step state (first ++ second) =
      answers step state first ++ answers step (run step state first) second := by
  induction first generalizing state with
  | nil => rfl
  | cons op rest ih =>
    simp only [List.cons_append, answers, run]
    rw [ih]

theorem answers_ops (step : State → Op → State × Answer) (state : State) (ops : List Op) :
    (answers step state ops).map Prod.fst = ops := by
  induction ops generalizing state with
  | nil => rfl
  | cons op rest ih => simp [answers, ih]

theorem visits_append (step : State → Op → State × Answer) (state : State)
    (first second : List Op) :
    visits step state (first ++ second) =
      visits step state first ++ visits step (run step state first) second := by
  induction first generalizing state with
  | nil => rfl
  | cons op rest ih =>
    simp only [List.cons_append, visits, run]
    rw [ih]

theorem visits_ops (step : State → Op → State × Answer) (state : State) (ops : List Op)
    (visit : State × Op) (member : visit ∈ visits step state ops) : visit.2 ∈ ops := by
  induction ops generalizing state with
  | nil => simp [visits] at member
  | cons op rest ih =>
    rcases List.mem_cons.mp member with now | later
    · subst visit
      exact List.mem_cons_self
    · exact List.mem_cons_of_mem op (ih _ later)

/-- A visited operation splits the sequence, and is applied to the state that
the operations before it reach. -/
theorem mem_visits (step : State → Op → State × Answer) (state : State) (ops : List Op)
    (visit : State × Op) (member : visit ∈ visits step state ops) :
    ∃ before after, ops = before ++ visit.2 :: after ∧ visit.1 = run step state before := by
  induction ops generalizing state with
  | nil => simp [visits] at member
  | cons op rest ih =>
    rcases List.mem_cons.mp member with now | later
    · subst visit
      exact ⟨[], rest, rfl, rfl⟩
    · obtain ⟨before, after, split, here⟩ := ih _ later
      exact ⟨op :: before, after, by rw [split]; rfl, here⟩

theorem mem_answers (step : State → Op → State × Answer) (state : State) (ops : List Op)
    (entry : Op × Answer) (member : entry ∈ answers step state ops) :
    ∃ before after, ops = before ++ entry.1 :: after ∧
      entry.2 = (step (run step state before) entry.1).2 := by
  induction ops generalizing state with
  | nil => simp [answers] at member
  | cons op rest ih =>
    rcases List.mem_cons.mp member with now | later
    · subst entry
      exact ⟨[], rest, rfl, rfl⟩
    · obtain ⟨before, after, rfl, result⟩ := ih _ later
      exact ⟨op :: before, after, rfl, result⟩

/-- What every step preserves under its guard holds after a run whose steps all
meet the guard where they are taken. -/
theorem run_guarded (step : State → Op → State × Answer) (guard : State → Op → Prop)
    (invariant : State → Prop)
    (keeps : ∀ state op, guard state op → invariant state → invariant (step state op).1)
    (state : State) (ops : List Op) (all : ∀ visit ∈ visits step state ops, guard visit.1 visit.2)
    (initial : invariant state) : invariant (run step state ops) := by
  induction ops generalizing state with
  | nil => exact initial
  | cons op rest ih =>
    have now := all (state, op) List.mem_cons_self
    exact ih (step state op).1 (fun later member => all later (List.mem_cons_of_mem _ member))
      (keeps state op now initial)

theorem run_invariant (step : State → Op → State × Answer) (allowed : Op → Prop)
    (invariant : State → Prop)
    (keeps : ∀ state op, allowed op → invariant state → invariant (step state op).1)
    (state : State) (ops : List Op) (all : ∀ op ∈ ops, allowed op)
    (initial : invariant state) : invariant (run step state ops) := by
  apply run_guarded step (fun _ op => allowed op) invariant keeps state ops
  · intro visit member
    exact all visit.2 (visits_ops step state ops visit member)
  · exact initial

theorem visits_guarded (step : State → Op → State × Answer) (guard : State → Op → Prop)
    (invariant : State → Prop)
    (keeps : ∀ state op, guard state op → invariant state → invariant (step state op).1)
    (state : State) (ops : List Op) (all : ∀ visit ∈ visits step state ops, guard visit.1 visit.2)
    (initial : invariant state) : ∀ visit ∈ visits step state ops, invariant visit.1 := by
  induction ops generalizing state with
  | nil => simp [visits]
  | cons op rest ih =>
    have now := all (state, op) List.mem_cons_self
    intro visit member
    rcases List.mem_cons.mp member with here | later
    · rw [here]
      exact initial
    · exact ih (step state op).1 (fun other inside => all other (List.mem_cons_of_mem _ inside))
        (keeps state op now initial) visit later

/-- Where every step but those of one kind keeps a property, and what the property shows
fails behind those, it is shown all along a run exactly if no step is of that kind. -/
theorem run_shown_iff (step : State → Op → State × Answer) (invariant holds shown : State → Prop)
    (ends : State → Op → Prop) (keeps : ∀ state op, invariant state → invariant (step state op).1)
    (holding : ∀ state, invariant state → holds state → shown state)
    (lasts : ∀ state op, invariant state → holds state → ¬ ends state op →
      holds (step state op).1)
    (ended : ∀ state op, invariant state → holds state → ends state op →
      ¬ shown (step state op).1)
    (state : State) (ops : List Op) (valid : invariant state) (initial : holds state) :
    (∀ reached, reached <+: ops → shown (run step state reached)) ↔
      ∀ visit ∈ visits step state ops, ¬ ends visit.1 visit.2 := by
  induction ops generalizing state with
  | nil =>
    refine iff_of_true ?_ (by simp [visits])
    intro reached stem
    rw [List.prefix_nil.mp stem]
    exact holding state valid initial
  | cons op rest ih =>
    have tail := ih (step state op).1 (keeps state op valid)
    constructor
    · intro all visit member
      have kind : ¬ ends state op :=
        fun gone => ended state op valid initial gone (all [op] ⟨rest, rfl⟩)
      rcases List.mem_cons.mp member with now | later
      · rw [now]
        exact kind
      · refine (tail (lasts state op valid initial kind)).mp ?_ visit later
        intro reached stem
        exact all (op :: reached) (List.prefix_cons_inj op |>.mpr stem)
    · intro none reached stem
      cases reached with
      | nil => exact holding state valid initial
      | cons first reached =>
        obtain ⟨same, inner⟩ := List.cons_prefix_cons.mp stem
        subst same
        have next := lasts state first valid initial (none (state, first) List.mem_cons_self)
        refine (tail next).mpr ?_ reached inner
        intro visit later
        exact none visit (List.mem_cons_of_mem _ later)

/-- Where it is known which step ends a property, the property holds all along a run
exactly if no step of the run is of that kind. -/
theorem run_throughout_iff (step : State → Op → State × Answer) (invariant holds : State → Prop)
    (ends : State → Op → Prop) (keeps : ∀ state op, invariant state → invariant (step state op).1)
    (ended : ∀ state op, invariant state → holds state →
      (¬ holds (step state op).1 ↔ ends state op))
    (state : State) (ops : List Op) (valid : invariant state) (initial : holds state) :
    (∀ reached, reached <+: ops → holds (run step state reached)) ↔
      ∀ visit ∈ visits step state ops, ¬ ends visit.1 visit.2 :=
  run_shown_iff step invariant holds holds ends keeps (fun _ _ held => held)
    (fun state op valid held kind =>
      not_not.mp fun gone => kind ((ended state op valid held).mp gone))
    (fun state op valid held => (ended state op valid held).mpr) state ops valid initial

/-- A state may be spoiled, so that whatever is done next is fatal. From a sound state a
run ends dead exactly if one of its steps kills, or spoils with another step behind it. -/
theorem run_dead_iff (step : State → Op → State × Answer) (dead spoiled : State → Prop)
    (kills spoils : State → Op → Prop) (stays : ∀ state op, dead state → dead (step state op).1)
    (fatal : ∀ state op, spoiled state → dead (step state op).1)
    (killed : ∀ state op, ¬ dead state → ¬ spoiled state →
      (dead (step state op).1 ↔ kills state op))
    (spoilt : ∀ state op, ¬ dead state → ¬ spoiled state → ¬ dead (step state op).1 →
      (spoiled (step state op).1 ↔ spoils state op))
    (state : State) (ops : List Op) (alive : ¬ dead state) (sound : ¬ spoiled state) :
    dead (run step state ops) ↔ ∃ before op after, ops = before ++ op :: after ∧
      (kills (run step state before) op ∨ spoils (run step state before) op ∧ after ≠ []) := by
  have forever : ∀ (reached : State) (rest : List Op), dead reached →
      dead (run step reached rest) :=
    fun reached rest ended => run_invariant step (fun _ => True) dead
      (fun state op _ ended => stays state op ended) reached rest (fun _ _ => trivial) ended
  induction ops generalizing state with
  | nil => exact iff_of_false alive (by simp)
  | cons op rest ih =>
    have dies := killed state op alive sound
    have breaks := spoilt state op alive sound
    rw [run]
    by_cases ended : dead (step state op).1
    · exact iff_of_true (forever _ rest ended) ⟨[], op, rest, rfl, Or.inl (dies.mp ended)⟩
    by_cases broken : spoiled (step state op).1
    · cases rest with
      | nil =>
        refine iff_of_false ended ?_
        rintro ⟨before, other, after, split, happens⟩
        cases before with
        | nil =>
          cases split
          rcases happens with kill | spoil
          · exact ended (dies.mpr kill)
          · exact spoil.2 rfl
        | cons first before => simp at split
      | cons next rest =>
        refine iff_of_true (forever _ rest (fatal _ next broken))
          ⟨[], op, next :: rest, rfl, Or.inr ⟨(breaks ended).mp broken, nofun⟩⟩
    · refine (ih (step state op).1 ended broken).trans ⟨?_, ?_⟩
      · rintro ⟨before, other, after, rfl, happens⟩
        exact ⟨op :: before, other, after, rfl, happens⟩
      · rintro ⟨before, other, after, split, happens⟩
        cases before with
        | nil =>
          cases split
          rcases happens with kill | spoil
          · exact absurd (dies.mpr kill) ended
          · exact absurd ((breaks ended).mpr spoil.1) broken
        | cons first before =>
          cases split
          exact ⟨before, other, after, rfl, happens⟩

/-- The list takes its operations from the fronts of the threads, one at a
time; it may stop before the threads are finished. -/
inductive Interleaves : List (List Op) → List Op → Prop where
  | done (threads : List (List Op)) : Interleaves threads []
  | turn (before after : List (List Op)) (op : Op) (rest ops : List Op)
      (later : Interleaves (before ++ rest :: after) ops) :
      Interleaves (before ++ (op :: rest) :: after) (op :: ops)

theorem interleaves_single (ops : List Op) : Interleaves [ops] ops := by
  induction ops with
  | nil => exact .done _
  | cons op rest ih => exact .turn [] [] op rest rest ih

theorem interleaves_mem (threads : List (List Op)) (ops : List Op)
    (order : Interleaves threads ops) (op : Op) (member : op ∈ ops) :
    ∃ thread ∈ threads, op ∈ thread := by
  induction order with
  | done threads => cases member
  | turn before after first rest ops later ih =>
    rcases List.mem_cons.mp member with same | inside
    · subst op
      exact ⟨first :: rest, List.mem_append_right _ List.mem_cons_self, List.mem_cons_self⟩
    · obtain ⟨thread, among, here⟩ := ih inside
      rcases List.mem_append.mp among with earlier | among
      · exact ⟨thread, List.mem_append_left _ earlier, here⟩
      · rcases List.mem_cons.mp among with same | other
        · subst thread
          exact ⟨first :: rest, List.mem_append_right _ List.mem_cons_self,
            List.mem_cons_of_mem first here⟩
        · exact ⟨thread, List.mem_append_right _ (List.mem_cons_of_mem _ other), here⟩

/-- An invariant of the steps of interleaved threads. A thread is ready when
its remaining operations may be taken; it stays ready while others move. -/
theorem run_interleaved (step : State → Op → State × Answer) (guard : State → Op → Prop)
    (invariant : State → Prop) (ready : State → List Op → Prop)
    (keeps : ∀ state op rest, guard state op → ready state (op :: rest) → invariant state →
      invariant (step state op).1)
    (advances : ∀ state op rest, guard state op → ready state (op :: rest) → invariant state →
      ready (step state op).1 rest)
    (waits : ∀ state op rest thread, guard state op → ready state (op :: rest) →
      invariant state → ready state thread → ready (step state op).1 thread)
    (threads : List (List Op)) (ops : List Op) (order : Interleaves threads ops)
    (state : State) (all : ∀ visit ∈ visits step state ops, guard visit.1 visit.2)
    (started : ∀ thread ∈ threads, ready state thread) (initial : invariant state) :
    invariant (run step state ops) := by
  induction order generalizing state with
  | done threads => exact initial
  | turn before after op rest ops later ih =>
    have now := all (state, op) List.mem_cons_self
    have moving : ready state (op :: rest) :=
      started (op :: rest) (List.mem_append_right before List.mem_cons_self)
    apply ih
    · intro visit member
      exact all visit (List.mem_cons_of_mem _ member)
    · intro thread member
      rcases List.mem_append.mp member with earlier | member
      · exact waits state op rest thread now moving initial
          (started thread (List.mem_append_left _ earlier))
      · rcases List.mem_cons.mp member with same | other
        · subst thread
          exact advances state op rest now moving initial
        · exact waits state op rest thread now moving initial
            (started thread (List.mem_append_right _ (List.mem_cons_of_mem _ other)))
    · exact keeps state op rest now moving initial

section Absorption

variable (step : State → Op → State × Answer) (settled : Op → State → Prop)

/-- If every operation settles itself and stays settled under the others, then
all operations of a run are settled at its end. -/
theorem run_settles (allowed : Op → Prop)
    (settles : ∀ state op, allowed op → settled op (step state op).1)
    (stays : ∀ state op other, allowed other → settled op state → settled op (step state other).1)
    (state : State) (ops : List Op) (all : ∀ op ∈ ops, allowed op) :
    ∀ op ∈ ops, settled op (run step state ops) := by
  induction ops generalizing state with
  | nil => simp
  | cons first rest ih =>
    have tail : ∀ op ∈ rest, allowed op :=
      fun op member => all op (List.mem_cons_of_mem first member)
    intro op member
    rcases List.mem_cons.mp member with same | later
    · subst op
      exact run_invariant step allowed (settled first)
        (fun state other may held => stays state first other may held) _ rest tail
        (settles state first (all first List.mem_cons_self))
    · exact ih (step state first).1 tail op later

theorem run_absorbed (quiet : Answer → Prop)
    (absorbs : ∀ state op, settled op state →
      (step state op).1 = state ∧ quiet (step state op).2)
    (state : State) (ops : List Op) (all : ∀ op ∈ ops, settled op state) :
    run step state ops = state ∧ ∀ entry ∈ answers step state ops, quiet entry.2 := by
  induction ops with
  | nil => exact ⟨rfl, by simp [answers]⟩
  | cons op rest ih =>
    obtain ⟨same, silent⟩ := absorbs state op (all op List.mem_cons_self)
    have tail := ih fun later member => all later (List.mem_cons_of_mem op member)
    simp only [run, answers, same]
    refine ⟨tail.1, ?_⟩
    intro entry member
    rcases List.mem_cons.mp member with first | later
    · rw [first]
      exact silent
    · exact tail.2 entry later

/-- If each operation keeps a view of the state or applies one idempotent
function to it, a run in which it is applied at all applies it once. -/
theorem run_view {View : Type} (view : State → View) (apply : View → View)
    (idempotent : ∀ seen, apply (apply seen) = apply seen) (ops : List Op)
    (each : ∀ op ∈ ops, (∀ state, view (step state op).1 = view state) ∨
      ∀ state, view (step state op).1 = apply (view state))
    (once : ∃ op ∈ ops, ∀ state, view (step state op).1 = apply (view state)) (state : State) :
    view (run step state ops) = apply (view state) := by
  -- Behind the function it makes no difference how often it was applied.
  have behind : ∀ (ops : List Op) (state : State),
      (∀ op ∈ ops, (∀ state, view (step state op).1 = view state) ∨
        ∀ state, view (step state op).1 = apply (view state)) →
      apply (view (run step state ops)) = apply (view state) ∧
      (apply (view state) = view state → view (run step state ops) = view state) := by
    intro ops
    induction ops with
    | nil =>
      intro state _
      exact ⟨rfl, fun _ => rfl⟩
    | cons op rest ih =>
      intro state each
      obtain ⟨tail, fixed⟩ := ih (step state op).1
        fun later member => each later (List.mem_cons_of_mem op member)
      rcases each op List.mem_cons_self with keeps | applies
      · rw [keeps] at tail fixed
        exact ⟨tail, fixed⟩
      · rw [applies, idempotent] at tail
        rw [applies] at fixed
        refine ⟨tail, ?_⟩
        intro same
        rw [run, fixed (idempotent _)]
        exact same
  obtain ⟨op, member, applies⟩ := once
  obtain ⟨before, after, rfl⟩ := List.append_of_mem member
  have first := (behind before state fun other inside =>
    each other (List.mem_append_left _ inside)).1
  have second := (behind after (step (run step state before) op).1 fun other inside =>
    each other (List.mem_append_right _ (List.mem_cons_of_mem op inside))).2
  rw [run_append, run, second (by rw [applies, idempotent]), applies, first]

end Absorption

section AtMostOnce

variable (step : State → Op → State × Answer) (allowed : Op → Prop)
  (invariant marked : State → Prop) (hit : Op → Answer → Bool)

theorem no_hit_when_marked
    (keeps : ∀ state op, allowed op → invariant state → invariant (step state op).1)
    (stays : ∀ state op, allowed op → invariant state → marked state → marked (step state op).1)
    (refuses : ∀ state op, allowed op → invariant state → marked state →
      hit op (step state op).2 = false)
    (state : State) (ops : List Op) (all : ∀ op ∈ ops, allowed op)
    (valid : invariant state) (mark : marked state) :
    (answers step state ops).countP (fun entry => hit entry.1 entry.2) = 0 := by
  induction ops generalizing state with
  | nil => rfl
  | cons op rest ih =>
    have now := all op List.mem_cons_self
    have later := ih (step state op).1
      (fun later member => all later (List.mem_cons_of_mem op member))
      (keeps state op now valid) (stays state op now valid mark)
    simp [answers, refuses state op now valid mark, later]

/-- If a hit leaves the mark, the mark survives and a marked state refuses the
hit, then a run has at most one hit. -/
theorem hits_at_most_once
    (keeps : ∀ state op, allowed op → invariant state → invariant (step state op).1)
    (stays : ∀ state op, allowed op → invariant state → marked state → marked (step state op).1)
    (marks : ∀ state op, allowed op → invariant state → hit op (step state op).2 = true →
      marked (step state op).1)
    (refuses : ∀ state op, allowed op → invariant state → marked state →
      hit op (step state op).2 = false)
    (state : State) (ops : List Op) (all : ∀ op ∈ ops, allowed op)
    (valid : invariant state) :
    (answers step state ops).countP (fun entry => hit entry.1 entry.2) ≤ 1 := by
  induction ops generalizing state with
  | nil => simp [answers]
  | cons op rest ih =>
    have now := all op List.mem_cons_self
    have tail : ∀ later ∈ rest, allowed later :=
      fun later member => all later (List.mem_cons_of_mem op member)
    have validNext := keeps state op now valid
    by_cases first : hit op (step state op).2 = true
    · -- The first hit marks the state, so nothing after it counts.
      have none := no_hit_when_marked step allowed invariant marked hit keeps stays refuses
        (step state op).1 rest tail validNext (marks state op now valid first)
      simp [answers, first, none]
    · simpa [answers, first] using ih (step state op).1 tail validNext

end AtMostOnce

end Serf.Library.Machine
