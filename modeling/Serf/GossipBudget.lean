import Mathlib.Data.List.Perm.Subperm
import Serf.MemberTable

/-!
The messages that a node adds to a packet of memberlist. The three queues budget a
message by its bytes alone, while the delegate counts what it takes in the packet,
frame included, and hands the difference to the next queue. A frame that adds a byte
can make the first count larger than the limit, and the messages of the last queue are
not counted again.
-/

namespace Serf.GossipBudget

open MemberTable

def broadcastLen (msg : Bytes) : Nat := msg.length

/-- What the three queues hold. -/
structure Held where
  broadcasts : List Bytes
  queryBroadcasts : List Bytes
  eventBroadcasts : List Bytes

/-- A queue as memberlist promises it: it returns some of the queued messages, whose
lengths stay within the limit. -/
structure Queue (queued : List Bytes) where
  getBroadcasts : Nat → List Bytes
  queued : ∀ limit, (getBroadcasts limit).Subperm queued
  within : ∀ limit, ((getBroadcasts limit).map broadcastLen).sum ≤ limit

structure Queues (held : Held) where
  broadcasts : Queue held.broadcasts
  queryBroadcasts : Queue held.queryBroadcasts
  eventBroadcasts : Queue held.eventBroadcasts

/-- `this` is missing until the node has started. The result `none` is an underflow of
`limit - bytes_used`: a panic, or with wrapping arithmetic a limit that bounds nothing. -/
def broadcastMessages {held : Held} (this : Option (Queues held)) (limit : Nat)
    (encodedLen : Bytes → Nat) : Option (List Bytes) :=
  match this with
  | none => some []
  | some this => do
      let msgs := this.broadcasts.getBroadcasts limit
      let bytesUsed := (msgs.map encodedLen).sum
      let queryMsgs := this.queryBroadcasts.getBroadcasts (← checkedSub limit bytesUsed)
      let bytesUsed := bytesUsed + (queryMsgs.map encodedLen).sum
      -- What this queue returns is not added to `bytes_used` any more.
      let eventMsgs := this.eventBroadcasts.getBroadcasts (← checkedSub limit bytesUsed)
      return msgs ++ queryMsgs ++ eventMsgs

/-- Neither an underflow nor more than the limit. -/
def WithinLimit {held : Held} (this : Option (Queues held)) (limit : Nat)
    (encodedLen : Bytes → Nat) : Prop :=
  ∃ msgs, broadcastMessages this limit encodedLen = some msgs ∧
    (msgs.map encodedLen).sum ≤ limit

def takeFitting : List Bytes → Nat → List Bytes
  | [], _ => []
  | msg :: rest, limit =>
    if broadcastLen msg ≤ limit then msg :: takeFitting rest (limit - broadcastLen msg)
    else takeFitting rest limit

theorem takeFitting_sublist (msgs : List Bytes) (limit : Nat) :
    (takeFitting msgs limit).Sublist msgs := by
  induction msgs generalizing limit with
  | nil => exact List.Sublist.slnil
  | cons msg rest ih =>
    rw [takeFitting]
    split
    · exact (ih _).cons_cons msg
    · exact (ih _).cons msg

theorem takeFitting_within (msgs : List Bytes) (limit : Nat) :
    ((takeFitting msgs limit).map broadcastLen).sum ≤ limit := by
  induction msgs generalizing limit with
  | nil => exact Nat.zero_le limit
  | cons msg rest ih =>
    rw [takeFitting]
    split
    · rename_i fits
      have tail := ih (limit - broadcastLen msg)
      simp only [List.map_cons, List.sum_cons]
      omega
    · exact ih limit

theorem takeFitting_all (msgs : List Bytes) (limit : Nat)
    (fits : (msgs.map broadcastLen).sum ≤ limit) : takeFitting msgs limit = msgs := by
  induction msgs generalizing limit with
  | nil => rfl
  | cons msg rest ih =>
    simp only [List.map_cons, List.sum_cons] at fits
    rw [takeFitting, if_pos (by omega), ih _ (by omega)]

def Queue.fitting (queued chosen : List Bytes) (among : chosen.Subperm queued) : Queue queued where
  getBroadcasts := takeFitting chosen
  queued limit := (takeFitting_sublist chosen limit).subperm.trans among
  within := takeFitting_within chosen

section Accounting

variable (encodedLen : Bytes → Nat)

def framed (msgs : List Bytes) : Nat := (msgs.map encodedLen).sum

/-- Whatever of the queued messages fits into the room by its bytes fits with its frames. -/
def Fits (queued : List Bytes) (room : Nat) : Prop :=
  ∀ chosen : List Bytes, chosen.Subperm queued → (chosen.map broadcastLen).sum ≤ room →
    framed encodedLen chosen ≤ room

/-- The messages fit in the room that is left for them: the whole limit for the
broadcasts, for the queries what a choice of broadcasts leaves of it, and for the events
what a choice of both leaves. -/
structure Fitting (held : Held) (limit : Nat) : Prop where
  broadcasts : Fits encodedLen held.broadcasts limit
  queries : ∀ first : List Bytes, first.Subperm held.broadcasts →
    framed encodedLen first ≤ limit →
    Fits encodedLen held.queryBroadcasts (limit - framed encodedLen first)
  events : ∀ first second : List Bytes, first.Subperm held.broadcasts →
    second.Subperm held.queryBroadcasts →
    framed encodedLen first + framed encodedLen second ≤ limit →
    Fits encodedLen held.eventBroadcasts
      (limit - (framed encodedLen first + framed encodedLen second))

variable {held : Held}

def drawn (this : Queues held) (limit : Nat) : List Bytes × List Bytes × List Bytes :=
  let first := this.broadcasts.getBroadcasts limit
  let second := this.queryBroadcasts.getBroadcasts (limit - framed encodedLen first)
  (first, second, this.eventBroadcasts.getBroadcasts
    (limit - (framed encodedLen first + framed encodedLen second)))

theorem withinLimit_iff (this : Queues held) (limit : Nat) :
    WithinLimit (some this) limit encodedLen ↔
      framed encodedLen (drawn encodedLen this limit).1 +
        framed encodedLen (drawn encodedLen this limit).2.1 +
        framed encodedLen (drawn encodedLen this limit).2.2 ≤ limit := by
  simp only [WithinLimit, broadcastMessages, checkedSub, drawn, framed, Option.bind_eq_bind,
    Option.pure_def]
  split
  · rw [Option.bind_some]
    split
    · simp [Nat.add_assoc]
    · simp only [Option.bind_none, reduceCtorEq, false_and, exists_false, false_iff]
      omega
  · simp only [Option.bind_none, reduceCtorEq, false_and, exists_false, false_iff]
    omega

def Queues.choose (first second third : List Bytes) (amongFirst : first.Subperm held.broadcasts)
    (amongSecond : second.Subperm held.queryBroadcasts)
    (amongThird : third.Subperm held.eventBroadcasts) : Queues held :=
  ⟨.fitting _ first amongFirst, .fitting _ second amongSecond, .fitting _ third amongThird⟩

theorem drawn_choose (limit : Nat) (first second third : List Bytes)
    (amongFirst : first.Subperm held.broadcasts) (amongSecond : second.Subperm held.queryBroadcasts)
    (amongThird : third.Subperm held.eventBroadcasts)
    (fitsFirst : (first.map broadcastLen).sum ≤ limit)
    (fitsSecond : (second.map broadcastLen).sum ≤ limit - framed encodedLen first)
    (fitsThird : (third.map broadcastLen).sum ≤
      limit - (framed encodedLen first + framed encodedLen second)) :
    drawn encodedLen (.choose first second third amongFirst amongSecond amongThird) limit =
      (first, second, third) := by
  simp only [drawn, Queues.choose, Queue.fitting, takeFitting_all first _ fitsFirst,
    takeFitting_all second _ fitsSecond, takeFitting_all third _ fitsThird]

theorem bytes_le_framed (frames : ∀ msg, broadcastLen msg ≤ encodedLen msg) (msgs : List Bytes) :
    (msgs.map broadcastLen).sum ≤ framed encodedLen msgs :=
  List.sum_le_sum fun msg _ => frames msg

theorem fitting_within (limit : Nat) (fitting : Fitting encodedLen held limit)
    (this : Option (Queues held)) : WithinLimit this limit encodedLen := by
  cases this with
  | none => exact ⟨[], rfl, Nat.zero_le limit⟩
  | some this =>
    rw [withinLimit_iff]
    have first := fitting.broadcasts _ (this.broadcasts.queued limit)
      (this.broadcasts.within limit)
    have second := fitting.queries _ (this.broadcasts.queued limit) first _
      (this.queryBroadcasts.queued _) (this.queryBroadcasts.within _)
    have third := fitting.events _ _ (this.broadcasts.queued limit)
      (this.queryBroadcasts.queued (limit - framed encodedLen
        (this.broadcasts.getBroadcasts limit))) (by omega) _
      (this.eventBroadcasts.queued _) (this.eventBroadcasts.within _)
    simp only [drawn]
    omega

/-- For a limit and what the queues hold, the budget is kept whatever the queues return
of it exactly if all that fits by its bytes into the room left for it fits there with
its frames. -/
theorem budget_kept_iff (held : Held) (limit : Nat)
    (frames : ∀ msg, broadcastLen msg ≤ encodedLen msg) :
    (∀ this : Option (Queues held), WithinLimit this limit encodedLen) ↔
      Fitting encodedLen held limit := by
  refine ⟨fun kept => ⟨?_, ?_, ?_⟩, fitting_within encodedLen limit⟩
  · intro first among fits
    have total := (withinLimit_iff encodedLen _ limit).mp (kept (some (.choose first [] [] among
      List.nil_subperm List.nil_subperm)))
    rw [drawn_choose encodedLen limit first [] [] _ _ _ fits (Nat.zero_le _) (Nat.zero_le _)]
      at total
    simp only at total
    omega
  · intro first among fits second amongSecond fitsSecond
    have bytes := bytes_le_framed encodedLen frames first
    have total := (withinLimit_iff encodedLen _ limit).mp (kept (some (.choose first second []
      among amongSecond List.nil_subperm)))
    rw [drawn_choose encodedLen limit first second [] _ _ _ (by omega) fitsSecond (Nat.zero_le _)]
      at total
    simp only at total
    omega
  · intro first second among amongSecond fits third amongThird fitsThird
    have bytes := bytes_le_framed encodedLen frames first
    have bytesToo := bytes_le_framed encodedLen frames second
    have total := (withinLimit_iff encodedLen _ limit).mp (kept (some (.choose first second third
      among amongSecond amongThird)))
    rw [drawn_choose encodedLen limit first second third _ _ _ (by omega) (by omega) fitsThird]
      at total
    simp only at total
    omega

theorem framed_subperm (chosen queued : List Bytes) (among : chosen.Subperm queued) :
    framed encodedLen chosen ≤ framed encodedLen queued := by
  obtain ⟨same, permuted, inside⟩ := among
  rw [framed, ← (permuted.map encodedLen).sum_eq]
  exact (inside.map encodedLen).sum_le_sum fun _ _ => Nat.zero_le _

theorem fitting_of_room (limit : Nat)
    (room : framed encodedLen held.broadcasts + framed encodedLen held.queryBroadcasts +
      framed encodedLen held.eventBroadcasts ≤ limit) : Fitting encodedLen held limit := by
  have bound := framed_subperm encodedLen
  refine ⟨?_, ?_, ?_⟩
  · intro chosen among _
    have := bound chosen _ among
    omega
  · intro first inFirst _ chosen among _
    have := bound chosen _ among
    have := bound first _ inFirst
    omega
  · intro first second inFirst inSecond _ chosen among _
    have := bound chosen _ among
    have := bound first _ inFirst
    have := bound second _ inSecond
    omega

def Queues.fitting (held : Held) : Queues held :=
  .choose _ _ _ (List.Subperm.refl _) (List.Subperm.refl _) (List.Subperm.refl _)

end Accounting

theorem budget_kept_small :
    WithinLimit (some (Queues.fitting ⟨[[1, 2]], [[3]], [[4, 5], [6]]⟩)) 1400
      (fun msg => msg.length + 2) :=
  (budget_kept_iff (fun msg => msg.length + 2) ⟨[[1, 2]], [[3]], [[4, 5], [6]]⟩ 1400
    fun _ => Nat.le_add_right _ _).mpr (fitting_of_room _ 1400 (by decide)) _

/-- With two bytes of frame, three bytes in the first queue underflow at the limit of
three, and in the last queue they go out as five. -/
theorem budget_overrun :
    let encodedLen := fun msg : Bytes => msg.length + 2
    broadcastMessages (some (Queues.fitting ⟨[[1, 2, 3]], [], []⟩)) 3 encodedLen = none ∧
    (broadcastMessages (some (Queues.fitting ⟨[], [], [[1, 2, 3]]⟩)) 3 encodedLen).map
      (fun msgs => (msgs.map encodedLen).sum) = some 5 := by
  decide

end Serf.GossipBudget
