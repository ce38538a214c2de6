import Serf.Library.Window
import Serf.Types

/-!
`types/clock.rs`. The clock is the word inside the atomic; the compare-exchange
loop of `witness` retries until it has replaced the value it read, so one call
is one atomic step. Additions wrap as an unchecked release build does.
-/

namespace Serf.LamportClock

open Library.Window

def new : LamportTime := 0

def increment (clock : LamportTime) : LamportTime := clock + 1

def witness (clock time : LamportTime) : LamportTime :=
  if time < clock then clock else time + 1

variable (clock time : LamportTime)

theorem witness_passes (bound : time < u64Max) : time < witness clock time := by
  unfold witness
  split
  · assumption
  · grind

theorem witness_grows (bound : time < u64Max) : clock ≤ witness clock time := by
  unfold witness
  split
  · exact le_refl _
  · grind

theorem witness_idle (passed : time < clock) : witness clock time = clock := by
  simp [witness, passed]

theorem increment_passes (bound : clock < u64Max) : clock < increment clock := by
  unfold increment
  grind

end Serf.LamportClock
