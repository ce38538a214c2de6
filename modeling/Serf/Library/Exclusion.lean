import Serf.Library.Tasks

/-!
A lock that tasks hold in turn. The lock is a flag of the shared state, and a task says
itself whether it is inside. As long as every step takes the lock when it enters and gives
it back when it leaves, the flag counts the tasks inside. A chance that is gone for good
once a task has taken it is taken by a single one.
-/

namespace Serf.Library.Exclusion

open Tasks

variable {Task : Type}

def Exclusive (inside : Task → Bool) (locked : Bool) (tasks : List Task) : Prop :=
  tasks.countP inside = if locked then 1 else 0

inductive Passes : Bool → Bool → Bool → Bool → Prop where
  | stays (locked inside : Bool) : Passes locked inside locked inside
  | enters : Passes false false true true
  | leaves (locked : Bool) : Passes locked true false false

section Steps

variable {inside : Task → Bool} {locked : Bool} {tasks : List Task}

theorem exclusive_nil : Exclusive inside false ([] : List Task) := rfl

theorem Exclusive.free (held : Exclusive inside false tasks) (task : Task)
    (member : task ∈ tasks) : inside task = false := by
  have none := List.countP_eq_zero.mp held task member
  simpa using none

theorem Exclusive.taken (held : Exclusive inside locked tasks) (task : Task)
    (member : task ∈ tasks) (entered : inside task = true) : locked = true := by
  cases locked with
  | true => rfl
  | false => exact absurd entered (by rw [held.free task member]; exact Bool.false_ne_true)

theorem Exclusive.started (held : Exclusive inside locked tasks) (task : Task)
    (outside : inside task = false) : Exclusive inside locked (tasks ++ [task]) := by
  rw [Exclusive, List.countP_append, List.countP_singleton, outside]
  exact held

theorem Exclusive.advanced (held : Exclusive inside locked tasks) (index : Nat)
    (before after : Task) (found : tasks[index]? = some before) (taken : Bool)
    (passes : Passes locked (inside before) taken (inside after)) :
    Exclusive inside taken (tasks.set index after) := by
  have counted := countP_advanced tasks index before after found inside
  have member := List.mem_of_getElem? found
  unfold Exclusive at held ⊢
  generalize entering : inside before = first at passes counted
  generalize inside after = second at passes counted
  cases passes with
  | stays => omega
  | enters =>
    simp only [Bool.false_eq_true, if_false, if_true] at counted held ⊢
    omega
  | leaves =>
    have taken := Exclusive.taken held before member entering
    rw [taken] at held
    simp only [Bool.false_eq_true, if_false, if_true] at counted held ⊢
    omega

theorem Exclusive.alone (held : Exclusive inside locked tasks) (counted : Task → Bool)
    (within : ∀ task, counted task = true → inside task = true) (task : Task)
    (member : task ∈ tasks) (entered : inside task = true) (other : counted task = false) :
    tasks.countP counted = 0 := by
  have taken := held.taken task member entered
  -- One is inside in all, and that is the given task, which is not among the counted.
  have split := List.countP_eq_countP_filter_add tasks inside counted
  have counts : (tasks.filter counted).countP inside = tasks.countP counted := by
    rw [List.countP_filter]
    apply List.countP_congr
    intro task _
    simpa using within task
  have positive : 0 < (tasks.filter fun task => !counted task).countP inside :=
    List.countP_pos_iff.mpr ⟨task, List.mem_filter.mpr ⟨member, by simp [other]⟩, entered⟩
  rw [Exclusive, taken] at held
  simp only [if_true] at held
  omega

end Steps

section Chances

structure TakenOnce (taken : Task → Bool) (available : Prop) (tasks : List Task) : Prop where
  before : available → tasks.countP taken = 0
  most : tasks.countP taken ≤ 1

theorem TakenOnce.advanced {taken : Task → Bool} {available remains : Prop} {tasks : List Task}
    (held : TakenOnce taken available tasks) (index : Nat) (before after : Task)
    (found : tasks[index]? = some before) (was : remains → available)
    (moves : taken after = taken before ∨ available ∧ ¬ remains) :
    TakenOnce taken remains (tasks.set index after) := by
  have counted := countP_advanced tasks index before after found taken
  have most := held.most
  rcases moves with same | ⟨there, gone⟩
  · rw [same] at counted
    constructor
    · intro now
      have none := held.before (was now)
      omega
    · omega
  · have none := held.before there
    refine ⟨fun now => absurd now gone, ?_⟩
    split at counted <;> split at counted <;> omega

end Chances

end Serf.Library.Exclusion
