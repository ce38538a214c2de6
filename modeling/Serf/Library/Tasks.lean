import Serf.Library.Machine

/-!
Tasks that take turns on a shared state. A turn starts a task, lets one task take
its next atomic step, or changes the shared state from outside. An invariant of a
whole run is an invariant of the three kinds of turns; the lemmas about lists say
what a turn leaves of the tasks.
-/

namespace Serf.Library.Tasks

open Machine

structure World (Shared Task : Type) where
  shared : Shared
  tasks : List Task

inductive Turn (Call Input Change : Type) where
  | start (call : Call)
  | advance (index : Nat) (input : Input)
  | change (change : Change)

structure System (Shared Task Call Input Change : Type) where
  spawn : Call → Task
  advance : Input → Shared → Task → Shared × Task
  change : Change → Shared → Shared

variable {Shared Task Call Input Change : Type}

namespace System

variable (system : System Shared Task Call Input Change)

def started (world : World Shared Task) (call : Call) : World Shared Task :=
  { world with tasks := world.tasks ++ [system.spawn call] }

def advanced (world : World Shared Task) (index : Nat) (input : Input) (task : Task) :
    World Shared Task :=
  { shared := (system.advance input world.shared task).1
    tasks := world.tasks.set index (system.advance input world.shared task).2 }

def changed (world : World Shared Task) (change : Change) : World Shared Task :=
  { world with shared := system.change change world.shared }

/-- A turn of a task that does not exist does nothing. -/
def turn (world : World Shared Task) : Turn Call Input Change → World Shared Task × Unit
  | .start call => (system.started world call, ())
  | .advance index input =>
    match world.tasks[index]? with
    | some task => (system.advanced world index input task, ())
    | none => (world, ())
  | .change change => (system.changed world change, ())

@[simp] theorem turn_first (shared : Shared) (call : Call) :
    (system.turn ⟨shared, []⟩ (.start call)).1 = ⟨shared, [system.spawn call]⟩ := rfl

@[simp] theorem turn_alone (shared : Shared) (task : Task) (input : Input) :
    (system.turn ⟨shared, [task]⟩ (.advance 0 input)).1 =
      ⟨(system.advance input shared task).1, [(system.advance input shared task).2]⟩ := rfl

theorem run_alone (shared : Shared) (others : List Task) (task : Task) (inputs : List Input) :
    run system.turn ⟨shared, others ++ [task]⟩ (inputs.map (.advance others.length)) =
      let (shared, task) := inputs.foldl
        (fun (shared, task) input => system.advance input shared task) (shared, task)
      ⟨shared, others ++ [task]⟩ := by
  induction inputs generalizing shared task with
  | nil => rfl
  | cons input rest ih =>
    rw [List.map_cons, run, turn, List.getElem?_concat_length]
    simp only [advanced, List.set_append_right _ _ (Nat.le_refl _), Nat.sub_self,
      List.set_cons_zero]
    exact ih _ _

theorem run_started (world : World Shared Task) (call : Call) (inputs : List Input) :
    run system.turn world (.start call :: inputs.map (.advance world.tasks.length)) =
      let (shared, task) := inputs.foldl
        (fun (shared, task) input => system.advance input shared task)
        (world.shared, system.spawn call)
      ⟨shared, world.tasks ++ [task]⟩ :=
  system.run_alone world.shared world.tasks (system.spawn call) inputs

theorem turn_preserves (invariant : World Shared Task → Prop)
    (start : ∀ world call, invariant world → invariant (system.started world call))
    (advance : ∀ world index input task, world.tasks[index]? = some task → invariant world →
      invariant (system.advanced world index input task))
    (change : ∀ world change, invariant world → invariant (system.changed world change))
    (world : World Shared Task) (turn : Turn Call Input Change) (held : invariant world) :
    invariant (system.turn world turn).1 := by
  cases turn with
  | start call => exact start world call held
  | advance index input =>
    rw [System.turn]
    cases found : world.tasks[index]? with
    | none => exact held
    | some task => exact advance world index input task found held
  | change change_ => exact change world change_ held

theorem turn_length (world : World Shared Task) (turn : Turn Call Input Change) :
    world.tasks.length ≤ (system.turn world turn).1.tasks.length := by
  apply system.turn_preserves (fun reached => world.tasks.length ≤ reached.tasks.length)
  · intro reached call held
    simp only [started, List.length_append, List.length_singleton]
    omega
  · intro reached index input task _ held
    simpa [advanced] using held
  · intro reached change held
    exact held
  · exact Nat.le_refl _

theorem run_length (world : World Shared Task) (turns : List (Turn Call Input Change)) :
    world.tasks.length ≤ (run system.turn world turns).tasks.length := by
  induction turns generalizing world with
  | nil => exact Nat.le_refl _
  | cons turn rest ih => exact Nat.le_trans (system.turn_length world turn) (ih _)

theorem visits_length (world : World Shared Task) (turns : List (Turn Call Input Change))
    (visit : World Shared Task × Turn Call Input Change)
    (member : visit ∈ visits system.turn world turns) :
    (system.turn visit.1 visit.2).1.tasks.length ≤
      (run system.turn world turns).tasks.length := by
  obtain ⟨before, after, rfl, reached⟩ := mem_visits system.turn world turns visit member
  rw [run_append, ← reached]
  exact system.run_length (system.turn visit.1 visit.2).1 after

/-- An invariant that needs a bound on the number of tasks, and something of each turn,
holds along every run whose tasks stay within the bound. -/
theorem run_bounded (bound : Nat) (guard : World Shared Task → Turn Call Input Change → Prop)
    (invariant : World Shared Task → Prop)
    (keeps : ∀ world turn, (system.turn world turn).1.tasks.length < bound → guard world turn →
      invariant world → invariant (system.turn world turn).1)
    (world : World Shared Task) (turns : List (Turn Call Input Change))
    (few : (run system.turn world turns).tasks.length < bound)
    (all : ∀ visit ∈ visits system.turn world turns, guard visit.1 visit.2)
    (initial : invariant world) : invariant (run system.turn world turns) := by
  refine run_guarded system.turn
    (fun world turn => (system.turn world turn).1.tasks.length < bound ∧ guard world turn)
    invariant (fun world turn allowed => keeps world turn allowed.1 allowed.2) world turns ?_
      initial
  intro visit member
  exact ⟨Nat.lt_of_le_of_lt (system.visits_length world turns visit member) few, all visit member⟩

end System

section Lists

variable (tasks : List Task) (index : Nat) (before after : Task)
  (found : tasks[index]? = some before)

def Apart (relation : Task → Task → Prop) (tasks : List Task) : Prop :=
  ∀ (i j : Nat) (first second : Task), i ≠ j → tasks[i]? = some first → tasks[j]? = some second →
    relation first second

include found

theorem getElem?_advanced (other : Nat) :
    (tasks.set index after)[other]? = if other = index then some after else tasks[other]? := by
  have inside := (List.getElem?_eq_some_iff.mp found).1
  rw [List.getElem?_set]
  by_cases same : other = index
  · rw [if_pos same, if_pos same.symm, if_pos inside]
  · rw [if_neg same, if_neg fun equal => same equal.symm]

theorem mem_advanced : after ∈ tasks.set index after :=
  List.mem_of_getElem? ((getElem?_advanced tasks index before after found index).trans (if_pos rfl))

theorem exists_kept (property : Task → Prop) (keeps : property before → property after)
    (present : ∃ task ∈ tasks, property task) : ∃ task ∈ tasks.set index after, property task := by
  obtain ⟨task, member, holds⟩ := present
  obtain ⟨other, there⟩ := List.mem_iff_getElem?.mp member
  have lookup := getElem?_advanced tasks index before after found other
  by_cases same : other = index
  · subst same
    cases there.symm.trans found
    exact ⟨after, mem_advanced tasks other _ after found, keeps holds⟩
  · exact ⟨task, List.mem_of_getElem? (lookup.trans ((if_neg same).trans there)), holds⟩

theorem exists_advanced (property : Task → Prop) (without : ¬ property before) :
    (∃ task ∈ tasks.set index after, property task) ↔
      property after ∨ ∃ task ∈ tasks, property task := by
  constructor
  · rintro ⟨task, member, holds⟩
    rcases List.mem_or_eq_of_mem_set member with there | rfl
    · exact Or.inr ⟨task, there, holds⟩
    · exact Or.inl holds
  · rintro (holds | present)
    · exact ⟨after, mem_advanced tasks index before after found, holds⟩
    · exact exists_kept tasks index before after found property
        (fun holds => absurd holds without) present

theorem map_advanced {Key : Type} (key : Task → Key) (same : key after = key before) :
    (tasks.set index after).map key = tasks.map key := by
  apply List.ext_getElem?
  intro i
  rw [List.getElem?_map, List.getElem?_map, getElem?_advanced tasks index before after found]
  split
  · rename_i here
    rw [here, found, Option.map_some, Option.map_some, same]
  · rfl

theorem countP_advanced (counted : Task → Bool) :
    (tasks.set index after).countP counted + (if counted before then 1 else 0) =
      tasks.countP counted + (if counted after then 1 else 0) := by
  induction tasks generalizing index with
  | nil => simp at found
  | cons first rest ih =>
    cases index with
    | zero =>
      simp only [List.getElem?_cons_zero, Option.some.injEq] at found
      subst found
      simp only [List.set_cons_zero, List.countP_cons]
      omega
    | succ index =>
      simp only [List.getElem?_cons_succ] at found
      simp only [List.set_cons_succ, List.countP_cons]
      have tail := ih index found
      omega

theorem apart_advanced (relation : Task → Task → Prop) (held : Apart relation tasks)
    (new : ∀ (j : Nat) (other : Task), j ≠ index → tasks[j]? = some other →
      relation after other ∧ relation other after) :
    Apart relation (tasks.set index after) := by
  intro i j first second different here there
  rw [getElem?_advanced tasks index before after found] at here there
  split at here
  · rename_i atIndex
    cases here
    rw [if_neg fun equal => different (atIndex.trans equal.symm)] at there
    exact (new j second (fun equal => different (atIndex.trans equal.symm)) there).1
  · split at there
    · rename_i elsewhere atIndex
      cases there
      exact (new i first elsewhere here).2
    · exact held i j first second different here there

omit found in
theorem apart_started (relation : Task → Task → Prop) (held : Apart relation tasks)
    (new : ∀ other ∈ tasks, relation after other ∧ relation other after) :
    Apart relation (tasks ++ [after]) := by
  intro i j first second different here there
  rw [List.getElem?_append] at here there
  split at here
  · split at there
    · exact held i j first second different here there
    · rename_i inside outside
      simp only [List.getElem?_singleton] at there
      split at there
      · cases there
        exact (new first (List.mem_of_getElem? here)).2
      · cases there
  · split at there
    · rename_i outside inside
      simp only [List.getElem?_singleton] at here
      split at here
      · cases here
        exact (new second (List.mem_of_getElem? there)).1
      · cases here
    · simp only [List.getElem?_singleton] at here there
      split at here
      · split at there
        · omega
        · cases there
      · cases here

end Lists

end Serf.Library.Tasks
