import Serf.QueryResponses

/-!
Concurrent queries and the table they are registered in. The table is keyed by the
time of the query, which a call reads without reserving it: until the call's own
`handle_query` has moved the clock, another call reads the same time. The second
registration then replaces the first, the timeout of the first takes the second
away, and the answers to the first no longer find it. This is the only way in which
queries that are running at the same time get in each other's way.
-/

namespace Serf.QuerySlots

open Library.Collections Library.Machine Library.Tasks
open LamportClock QueryHandler QueryResponses

variable {Id Address : Type} [DecidableEq Id] [DecidableEq Address]

def Live (registry : Registry Id Address) (handle : Nat) : Prop :=
  ∃ ltime, registry.timers[handle]? = some (.waiting ltime)

def timerTime : Timer → LamportTime
  | .waiting ltime | .removed ltime _ | .ended ltime _ => ltime

def taken : Timer → Option (Option Nat)
  | .waiting _ => none
  | .removed _ found | .ended _ found => some found

/-- The queries of a node do not get in each other's way: the live ones have different
times, each is the one registered under its time, every timeout has taken its own
query, and a response with the time and the id of a live query finds it. -/
structure Separate (registry : Registry Id Address) : Prop where
  distinct : ∀ (i j : Nat) (first second : Query Id Address), Live registry i → Live registry j →
    registry.queries[i]? = some first → registry.queries[j]? = some second →
    first.fixed.ltime = second.fixed.ltime → i = j
  kept : ∀ (i : Nat) (query : Query Id Address), Live registry i →
    registry.queries[i]? = some query → registry.responses.lookup query.fixed.ltime = some i
  timeouts : ∀ (own : Nat) (timer : Timer) (found : Option Nat),
    registry.timers[own]? = some timer → taken timer = some found → found = some own
  finds : ∀ (i : Nat) (query : Query Id Address), Live registry i →
    registry.queries[i]? = some query → ∀ resp msg, resp.ltime = query.fixed.ltime →
    resp.id = query.fixed.id → fromRef resp = .ok msg → route registry resp = .found i msg

/-- The turn registers a query under the time of one that is live. -/
def Overwrites (world : World (Registry Id Address) (Activity Id Address))
    (turn : Turn (Call Id Address) Input Change) : Prop :=
  ∃ index input q raw, turn = .advance index input ∧
    world.tasks[index]? = some (.query (.stamped q raw)) ∧ input.numNodes ≠ 0 ∧
    ∃ (handle : Nat) (query : Query Id Address), Live world.shared handle ∧
      world.shared.queries[handle]? = some query ∧ query.fixed.ltime = q.ltime

def times (registry : Registry Id Address) : List LamportTime :=
  registry.queries.map fun query => query.fixed.ltime

/-- The query and the timer at a position have the same time. -/
def Aligned (registry : Registry Id Address) : Prop :=
  registry.timers.map timerTime = times registry

/-- The part of `Separate` that the table and the timers carry. -/
structure Slotted (registry : Registry Id Address) : Prop where
  kept : ∀ (i : Nat) (ltime : LamportTime), registry.timers[i]? = some (.waiting ltime) →
    registry.responses.lookup ltime = some i
  timeouts : ∀ (own : Nat) (timer : Timer) (found : Option Nat),
    registry.timers[own]? = some timer → taken timer = some found → found = some own

section Positions

omit [DecidableEq Id] [DecidableEq Address]

variable (registry : Registry Id Address) (aligned : Aligned registry)

include aligned

theorem aligned_length : registry.timers.length = registry.queries.length := by
  have lengths := congrArg List.length aligned
  simpa [times] using lengths

theorem timer_query (i : Nat) (timer : Timer) (there : registry.timers[i]? = some timer) :
    ∃ query, registry.queries[i]? = some query ∧ query.fixed.ltime = timerTime timer := by
  have same := congrArg (fun list => list[i]?) aligned
  simp only [times, List.getElem?_map, there, Option.map_some] at same
  exact Option.map_eq_some_iff.mp same.symm

theorem live_waiting (i : Nat) (query : Query Id Address) (live : Live registry i)
    (there : registry.queries[i]? = some query) :
    registry.timers[i]? = some (.waiting query.fixed.ltime) := by
  obtain ⟨ltime, waiting⟩ := live
  obtain ⟨other, here, same⟩ := timer_query registry aligned i _ waiting
  cases there.symm.trans here
  rw [waiting, same]
  rfl

theorem slotted_separate (slotted : Slotted registry) : Separate registry := by
  have kept : ∀ (i : Nat) (query : Query Id Address), Live registry i →
      registry.queries[i]? = some query →
      registry.responses.lookup query.fixed.ltime = some i := by
    intro i query live there
    exact slotted.kept i _ (live_waiting registry aligned i query live there)
  refine ⟨?_, kept, slotted.timeouts, ?_⟩
  · intro i j first second liveFirst liveSecond here there same
    have atFirst := kept i first liveFirst here
    rw [same, kept j second liveSecond there] at atFirst
    exact (Option.some.inj atFirst).symm
  · intro i query live there resp msg ltime id converted
    have found := kept i query live there
    rw [← ltime] at found
    simp [route, found, there, id, converted]

end Positions

section Slots

omit [DecidableEq Id] [DecidableEq Address]

variable (registry : Registry Id Address) (slotted : Slotted registry)

theorem register_timers (aligned : Aligned registry) (query : Query Id Address) (i : Nat)
    (timer : Timer) (there : (registry.register query).timers[i]? = some timer) :
    registry.timers[i]? = some timer ∨
      (i = registry.queries.length ∧ timer = .waiting query.fixed.ltime) := by
  have lengths := aligned_length registry aligned
  simp only [Registry.register, List.getElem?_append] at there
  split at there
  · exact Or.inl there
  · rename_i outside
    rw [List.getElem?_singleton] at there
    split at there
    · cases there
      exact Or.inr ⟨by omega, rfl⟩
    · cases there

include slotted

theorem register_slotted (aligned : Aligned registry) (query : Query Id Address)
    (free : ∀ i : Nat, registry.timers[i]? ≠ some (.waiting query.fixed.ltime)) :
    Slotted (registry.register query) := by
  constructor
  · intro i time there
    simp only [Registry.register, lookup_insert_eq]
    rcases register_timers registry aligned query i _ there with old | ⟨rfl, same⟩
    · have different : time ≠ query.fixed.ltime := by
        rintro rfl
        exact free i old
      rw [if_neg different]
      exact slotted.kept i time old
    · cases same
      rw [if_pos rfl]
  · intro own timer found there took
    rcases register_timers registry aligned query own timer there with old | ⟨_, rfl⟩
    · exact slotted.timeouts own timer found old took
    · cases took

theorem fire_slotted (own : Nat) (ltime : LamportTime)
    (waiting : registry.timers[own]? = some (.waiting ltime)) :
    Slotted (registry.fire own ltime) := by
  have ours := slotted.kept own ltime waiting
  simp only [Registry.fire, ours]
  constructor
  · intro i time there
    simp only [getElem?_advanced _ own _ _ waiting] at there
    rw [lookup_erase_eq]
    split at there
    · cases there
    · rename_i other
      have kept := slotted.kept i time there
      have different : time ≠ ltime := by
        rintro rfl
        exact other (Option.some.inj (kept.symm.trans ours))
      rw [if_neg different]
      exact kept
  · intro i timer found there took
    simp only [getElem?_advanced _ own _ _ waiting] at there
    split at there
    · rename_i same
      cases there
      cases took
      rw [same]
    · exact slotted.timeouts i timer found there took

theorem expire_slotted (own : Nat) (ltime : LamportTime) (found : Option Nat)
    (removed : registry.timers[own]? = some (.removed ltime found)) :
    Slotted (registry.expire own ltime found) := by
  constructor
  · intro i time there
    rw [Registry.expire_timers, getElem?_advanced _ own _ _ removed] at there
    rw [Registry.expire_responses]
    split at there
    · cases there
    · exact slotted.kept i time there
  · intro i timer result there took
    rw [Registry.expire_timers, getElem?_advanced _ own _ _ removed] at there
    split at there
    · rename_i same
      cases there
      cases took
      rw [same]
      exact slotted.timeouts own _ _ removed rfl
    · exact slotted.timeouts i timer result there took

end Slots

section Effects

variable (world : World (Registry Id Address) (Activity Id Address))
  (turn : Turn (Call Id Address) Input Change) (after : Registry Id Address)

theorem times_update (registry : Registry Id Address) (handle : Nat)
    (f : Query Id Address → Query Id Address)
    (allowed : ∀ query, QueryStep world.tasks handle query (f query)) :
    times (registry.update handle f) = times registry := by
  apply List.ext_getElem?
  intro i
  simp only [times, List.getElem?_map, getElem?_update, Option.map_map]
  congr 1
  funext query
  have fixed := queryStep_fixed _ _ _ _ (allowed query)
  by_cases same : handle = i
  · simp [same, fixed]
  · simp [same]

theorem times_expire (own : Nat) (ltime : LamportTime) (found : Option Nat)
    (registry : Registry Id Address) :
    times (registry.expire own ltime found) = times registry := by
  cases found with
  | none => rfl
  | some target => exact times_update ⟨registry, []⟩ _ target _ fun _ => .close

variable (effect : Effect world turn after)

include effect

theorem effect_aligned (aligned : Aligned world.shared) : Aligned after := by
  unfold Aligned at aligned ⊢
  cases effect with
  | clock time => exact aligned
  | register index input q raw query is stamped made =>
    simp [Registry.register, times, timerTime, aligned]
  | update handle f allowed =>
    rw [times_update world world.shared handle f allowed]
    exact aligned
  | fire own ltime waiting =>
    exact (map_advanced _ own _ (.removed ltime _) waiting timerTime rfl).trans aligned
  | expire own ltime found removed =>
    rw [times_expire, Registry.expire_timers]
    exact (map_advanced _ own _ (.ended ltime found) removed timerTime rfl).trans aligned

theorem effect_slotted (aligned : Aligned world.shared) (apart : ¬ Overwrites world turn)
    (slotted : Slotted world.shared) : Slotted after := by
  cases effect with
  | clock time => exact ⟨slotted.kept, slotted.timeouts⟩
  | update handle f allowed => exact ⟨slotted.kept, slotted.timeouts⟩
  | register index input q raw query is stamped made =>
    have ltime : query.fixed.ltime = q.ltime := by rw [fromQuery_fixed _ _ _ _ made]
    have online : input.numNodes ≠ 0 := by
      rintro zero
      simp [fromQuery, zero] at made
    apply register_slotted world.shared slotted aligned query
    -- A live query with this time would be overwritten.
    intro i waiting
    rw [ltime] at waiting
    obtain ⟨other, here, same⟩ := timer_query world.shared aligned i _ waiting
    exact apart ⟨index, input, q, raw, is, stamped, online, i, other, ⟨_, waiting⟩, here, same⟩
  | fire own ltime waiting => exact fire_slotted world.shared slotted own ltime waiting
  | expire own ltime found removed =>
    exact expire_slotted world.shared slotted own ltime found removed

end Effects

variable (env : QueryEnvironment Id Address) (clock : LamportTime)
  (turns : List (Turn (Call Id Address) Input Change))

theorem run_aligned :
    Aligned (run (querying env).turn ⟨Registry.empty clock, []⟩ turns).shared := by
  apply run_invariant (querying env).turn (fun _ => True) (fun world => Aligned world.shared)
  · intro world turn _ aligned
    exact effect_aligned world turn _ (turn_effect world turn env) aligned
  · intro _ _
    trivial
  · rfl

theorem run_separate
    (apart : ∀ visit ∈ visits (querying env).turn ⟨Registry.empty clock, []⟩ turns,
      ¬ Overwrites visit.1 visit.2) :
    Separate (run (querying env).turn ⟨Registry.empty clock, []⟩ turns).shared := by
  have both : Aligned (run (querying env).turn ⟨Registry.empty clock, []⟩ turns).shared ∧
      Slotted (run (querying env).turn ⟨Registry.empty clock, []⟩ turns).shared := by
    apply run_guarded (querying env).turn (fun world turn => ¬ Overwrites world turn)
      (fun world => Aligned world.shared ∧ Slotted world.shared)
    · intro world turn fine held
      have effect := turn_effect world turn env
      exact ⟨effect_aligned world turn _ effect held.1,
        effect_slotted world turn _ effect held.1 fine held.2⟩
    · exact apart
    · refine ⟨rfl, ?_, ?_⟩
      · intro i ltime there
        cases there
      · intro own timer found there
        cases there
  exact slotted_separate _ both.1 both.2

variable (world : World (Registry Id Address) (Activity Id Address))

theorem overwrites_not_separate (turn : Turn (Call Id Address) Input Change)
    (aligned : Aligned world.shared) (overwrites : Overwrites world turn) :
    ¬ Separate ((querying env).turn world turn).1.shared := by
  obtain ⟨index, input, q, raw, rfl, stamped, online, handle, query, live, there, same⟩ :=
    overwrites
  obtain ⟨new, made⟩ : ∃ new, fromQuery q input.numNodes input.now = some new := by
    simp [fromQuery, online]
  have ltime : new.fixed.ltime = q.ltime := by rw [fromQuery_fixed _ _ _ _ made]
  have reached : ((querying env).turn world (.advance index input)).1.shared =
      world.shared.register new := by
    simp [System.turn, stamped, System.advanced, querying, advance, advanceQuery, made]
  obtain ⟨time, waiting⟩ := live
  have inside := (List.getElem?_eq_some_iff.mp there).1
  have lengths := aligned_length world.shared aligned
  rw [reached]
  intro separate
  have equal := separate.distinct handle world.shared.queries.length query new
    ⟨time, by rw [Registry.register, List.getElem?_append_left (by omega)]; exact waiting⟩
    ⟨new.fixed.ltime, by simp [Registry.register, ← lengths]⟩
    (by rw [Registry.register, List.getElem?_append_left inside]; exact there)
    (by simp [Registry.register]) (same.trans ltime.symm)
  omega

/-- The call has read the clock and has not moved it yet. -/
def between : Activity Id Address → Bool
  | .query (.stamped _ _) | .query (.registered _ _ _) => true
  | _ => false

/-- A call reads the clock only when no other is between its read and its witness,
and the clock is never at its largest value. -/
def readsAlone (world : World (Registry Id Address) (Activity Id Address)) :
    Turn (Call Id Address) Input Change → Bool
  | .advance index _ =>
    match world.tasks[index]? with
    | some (.query (.called _)) =>
      world.tasks.all (fun task => !between task) && decide (world.shared.clock < u64Max)
    | _ => true
  | .change (.witness time) => decide (time < u64Max)
  | _ => true

def OthersOutside (index : Nat) (tasks : List (Activity Id Address)) : Prop :=
  ∀ (j : Nat) (task : Activity Id Address), j ≠ index → tasks[j]? = some task →
    between task = false

/-- Who is between its read and its witness, and how the times in use compare with
its time or, when there is no one, with the clock. -/
inductive OneAtATime (clock : LamportTime) (used : List LamportTime)
    (tasks : List (Activity Id Address)) : Prop where
  | idle (outside : ∀ task ∈ tasks, between task = false) (passed : ∀ time ∈ used, time < clock)
  | read (index : Nat) (q : QueryMessage Id Address) (raw : Bytes)
      (here : tasks[index]? = some (.query (.stamped q raw))) (others : OthersOutside index tasks)
      (bound : q.ltime < u64Max) (current : q.ltime ≤ clock)
      (passed : ∀ time ∈ used, time < q.ltime)
  | entered (index handle : Nat) (q : QueryMessage Id Address) (raw : Bytes)
      (here : tasks[index]? = some (.query (.registered handle q raw)))
      (others : OthersOutside index tasks) (bound : q.ltime < u64Max)
      (passed : ∀ time ∈ used, time ≤ q.ltime)

section Outside

variable (tasks : List (Activity Id Address)) (index : Nat) (task next : Activity Id Address)
  (found : tasks[index]? = some task)

include found

omit [DecidableEq Id] [DecidableEq Address] in
theorem outside_left (others : OthersOutside index tasks) (left : between next = false) :
    ∀ other ∈ tasks.set index next, between other = false := by
  intro other member
  obtain ⟨j, there⟩ := List.mem_iff_getElem?.mp member
  rw [getElem?_advanced tasks index task next found] at there
  split at there
  · cases there
    exact left
  · rename_i different
    exact others j other different there

omit [DecidableEq Id] [DecidableEq Address] in
theorem others_advanced (holder : Nat) (others : OthersOutside holder tasks)
    (left : index ≠ holder → between next = false) :
    OthersOutside holder (tasks.set index next) := by
  intro j other different there
  rw [getElem?_advanced tasks index task next found] at there
  split at there
  · rename_i same
    cases there
    exact left fun equal => different (same.trans equal)
  · exact others j other different there

end Outside

omit [DecidableEq Id] [DecidableEq Address] in
theorem outside_others (tasks : List (Activity Id Address)) (index : Nat)
    (outside : ∀ task ∈ tasks, between task = false) : OthersOutside index tasks :=
  fun _ task _ there => outside task (List.mem_of_getElem? there)

section Reads

variable (env : QueryEnvironment Id Address) (clock : LamportTime) (used : List LamportTime)
  (tasks : List (Activity Id Address))

omit [DecidableEq Id] [DecidableEq Address] in
theorem started_oneAtATime (task : Activity Id Address) (outside : between task = false)
    (held : OneAtATime clock used tasks) : OneAtATime clock used (tasks ++ [task]) := by
  have others : ∀ index, OthersOutside index tasks → OthersOutside index (tasks ++ [task]) := by
    intro index before j other different there
    rw [List.getElem?_append] at there
    split at there
    · exact before j other different there
    · rw [List.getElem?_singleton] at there
      split at there
      · cases there
        exact outside
      · cases there
  have kept : ∀ (index : Nat) (other : Activity Id Address), tasks[index]? = some other →
      (tasks ++ [task])[index]? = some other := by
    intro index other there
    rw [List.getElem?_append_left (List.getElem?_eq_some_iff.mp there).1]
    exact there
  cases held with
  | idle before passed =>
    refine .idle ?_ passed
    intro other member
    rcases List.mem_append.mp member with old | new
    · exact before other old
    · rw [List.mem_singleton.mp new]
      exact outside
  | read index q raw here before bound current passed =>
    exact .read index q raw (kept _ _ here) (others index before) bound current passed
  | entered index handle q raw here before bound passed =>
    exact .entered index handle q raw (kept _ _ here) (others index before) bound passed

omit [DecidableEq Id] [DecidableEq Address] in
theorem grown_oneAtATime (later : LamportTime) (grows : clock ≤ later)
    (held : OneAtATime clock used tasks) : OneAtATime later used tasks := by
  cases held with
  | idle outside passed =>
    exact .idle outside fun time member => lt_of_lt_of_le (passed time member) grows
  | read index q raw here others bound current passed =>
    exact .read index q raw here others bound (le_trans current grows) passed
  | entered index handle q raw here others bound passed =>
    exact .entered index handle q raw here others bound passed

theorem advance_outside (input : Input) (registry : Registry Id Address)
    (task : Activity Id Address) (outside : between task = false)
    (started : ∀ call, task ≠ .query (.called call)) :
    (advance env input registry task).1.clock = registry.clock ∧
    times (advance env input registry task).1 = times registry ∧
    between (advance env input registry task).2 = false := by
  cases task with
  | query phase =>
    cases phase with
    | called call => exact absurd rfl (started call)
    | stamped q raw => cases outside
    | registered handle q raw => cases outside
    | failed reason => exact ⟨rfl, rfl, rfl⟩
    | panicked q => exact ⟨rfl, rfl, rfl⟩
    | witnessed handle q raw => exact ⟨rfl, rfl, rfl⟩
  | answer resp phase =>
    cases phase with
    | arrived => exact ⟨rfl, rfl, rfl⟩
    | found handle msg =>
      simp only [advance, advanceAnswer]
      cases registry.queries[handle]? <;> exact ⟨rfl, rfl, rfl⟩
    | checked handle msg =>
      simp only [advance, advanceAnswer]
      cases registry.queries[handle]? with
      | none => exact ⟨rfl, rfl, rfl⟩
      | some query =>
        refine ⟨rfl, ?_, rfl⟩
        exact times_update ⟨registry, [.answer resp (.checked handle msg)]⟩ registry handle _
          fun _ => .send resp msg List.mem_cons_self
    | ended ending => exact ⟨rfl, rfl, rfl⟩

theorem change_oneAtATime (registry : Registry Id Address) (c : Change)
    (legal : ∀ time, c = .witness time → time < u64Max)
    (held : OneAtATime registry.clock (times registry) tasks) :
    OneAtATime (change registry c).clock (times (change registry c)) tasks := by
  have updated : ∀ (handle : Nat) (f : Query Id Address → Query Id Address),
      (∀ query, @QueryStep Id Address _ _ [] handle query (f query)) →
      OneAtATime (registry.update handle f).clock (times (registry.update handle f)) tasks := by
    intro handle f allowed
    rw [times_update ⟨registry, []⟩ registry handle f allowed]
    exact held
  cases c with
  | witness time =>
    exact grown_oneAtATime _ _ _ _ (witness_grows _ _ (legal time rfl)) held
  | timer own =>
    rw [change, Registry.stepTimer]
    cases registry.timers[own]? with
    | none => exact held
    | some timer =>
      cases timer with
      | waiting ltime => exact held
      | removed ltime found =>
        simp only [times_expire]
        cases found <;> exact held
      | ended ltime found => exact held
  | close handle => exact updated handle _ fun _ => .close
  | takeAck handle => exact updated handle _ fun _ => .takeAck
  | takeResponse handle => exact updated handle _ fun _ => .takeResponse

end Reads

section Moves

variable (env : QueryEnvironment Id Address)
  (world : World (Registry Id Address) (Activity Id Address)) (index : Nat) (input : Input)
  (task : Activity Id Address) (found : world.tasks[index]? = some task)

include found

theorem moved_outside (outside : between task = false)
    (started : ∀ call, task ≠ .query (.called call))
    (held : OneAtATime world.shared.clock (times world.shared) world.tasks) :
    OneAtATime ((querying env).advanced world index input task).shared.clock
      (times ((querying env).advanced world index input task).shared)
      ((querying env).advanced world index input task).tasks := by
  obtain ⟨clock, used, left⟩ := advance_outside env input world.shared task outside started
  simp only [System.advanced, querying, clock, used]
  have elsewhere : ∀ (holder : Nat) (other : Activity Id Address), between other = true →
      world.tasks[holder]? = some other →
      (world.tasks.set index (advance env input world.shared task).2)[holder]? = some other := by
    intro holder other inside there
    rw [getElem?_advanced world.tasks index task _ found, if_neg]
    · exact there
    · rintro rfl
      cases found.symm.trans there
      exact Bool.false_ne_true (outside.symm.trans inside)
  cases held with
  | idle before passed =>
    refine .idle ?_ passed
    exact outside_left world.tasks index task _ found (outside_others _ index before) left
  | read holder q raw here others bound current passed =>
    exact .read holder q raw (elsewhere holder _ rfl here)
      (others_advanced world.tasks index task _ found holder others fun _ => left)
      bound current passed
  | entered holder handle q raw here others bound passed =>
    exact .entered holder handle q raw (elsewhere holder _ rfl here)
      (others_advanced world.tasks index task _ found holder others fun _ => left) bound passed

theorem moved_reading (call : QueryCall Id) (is : task = .query (.called call))
    (outside : ∀ other ∈ world.tasks, between other = false) (bound : world.shared.clock < u64Max)
    (passed : ∀ time ∈ times world.shared, time < world.shared.clock) :
    OneAtATime ((querying env).advanced world index input task).shared.clock
      (times ((querying env).advanced world index input task).shared)
      ((querying env).advanced world index input task).tasks := by
  subst is
  simp only [System.advanced, querying, advance, advanceQuery]
  have others := outside_others world.tasks index outside
  cases prepared : prepareQuery env input world.shared.clock call with
  | error reason =>
    exact .idle (outside_left world.tasks index _ _ found others rfl) passed
  | ok result =>
    obtain ⟨q, raw⟩ := result
    have stamp : q.ltime = world.shared.clock := by
      simp only [prepareQuery] at prepared
      split at prepared
      · cases prepared
      · split at prepared
        · cases prepared
        · cases prepared
          rfl
    have here := getElem?_advanced world.tasks index _ (.query (.stamped q raw)) found index
    rw [if_pos rfl] at here
    exact .read index q raw here
      (others_advanced world.tasks index _ _ found index others fun no => absurd rfl no)
      (stamp ▸ bound) (le_of_eq stamp) (stamp ▸ passed)

theorem moved_stamped (q : QueryMessage Id Address) (raw : Bytes)
    (is : task = .query (.stamped q raw)) (others : OthersOutside index world.tasks)
    (bound : q.ltime < u64Max) (current : q.ltime ≤ world.shared.clock)
    (passed : ∀ time ∈ times world.shared, time < q.ltime) :
    OneAtATime ((querying env).advanced world index input task).shared.clock
      (times ((querying env).advanced world index input task).shared)
      ((querying env).advanced world index input task).tasks := by
  subst is
  simp only [System.advanced, querying, advance, advanceQuery]
  cases made : fromQuery q input.numNodes input.now with
  | none =>
    exact .idle (outside_left world.tasks index _ _ found others rfl)
      fun time member => lt_of_lt_of_le (passed time member) current
  | some query =>
    have ltime : query.fixed.ltime = q.ltime := by rw [fromQuery_fixed _ _ _ _ made]
    have here := getElem?_advanced world.tasks index _
      (.query (.registered world.shared.queries.length q raw)) found index
    rw [if_pos rfl] at here
    refine .entered index _ q raw here
      (others_advanced world.tasks index _ _ found index others fun no => absurd rfl no) bound ?_
    intro time member
    simp only [times, Registry.register, List.map_append, List.map_cons, List.map_nil, ltime]
      at member
    rcases List.mem_append.mp member with old | new
    · exact le_of_lt (passed time old)
    · exact le_of_eq (List.mem_singleton.mp new)

end Moves

omit [DecidableEq Id] [DecidableEq Address] in
theorem readsAlone_called (index : Nat) (input : Input) (call : QueryCall Id)
    (found : world.tasks[index]? = some (.query (.called call)))
    (alone : readsAlone world (.advance index input) = true) :
    (∀ task ∈ world.tasks, between task = false) ∧ world.shared.clock < u64Max := by
  simpa [readsAlone, found] using alone

omit [DecidableEq Id] [DecidableEq Address] in
theorem nobody_reads (index : Nat) (input : Input) (task : Activity Id Address)
    (found : world.tasks[index]? = some task)
    (alone : readsAlone world (.advance index input) = true) (holder : Nat)
    (other : Activity Id Address) (here : world.tasks[holder]? = some other)
    (inside : between other = true) (call : QueryCall Id) : task ≠ .query (.called call) := by
  rintro rfl
  have outside := (readsAlone_called world index input call found alone).1 other
    (List.mem_of_getElem? here)
  rw [inside] at outside
  cases outside

theorem turn_oneAtATime (env : QueryEnvironment Id Address)
    (world : World (Registry Id Address) (Activity Id Address))
    (turn : Turn (Call Id Address) Input Change) (alone : readsAlone world turn = true)
    (held : OneAtATime world.shared.clock (times world.shared) world.tasks) :
    OneAtATime ((querying env).turn world turn).1.shared.clock
      (times ((querying env).turn world turn).1.shared)
      ((querying env).turn world turn).1.tasks := by
  cases turn with
  | start call =>
    apply started_oneAtATime _ _ _ _ _ held
    cases call <;> rfl
  | change c =>
    apply change_oneAtATime _ _ _ _ held
    rintro time rfl
    exact of_decide_eq_true alone
  | advance index input =>
    rw [System.turn]
    cases found : world.tasks[index]? with
    | none => exact held
    | some task =>
      cases held with
      | idle outside passed =>
        by_cases reads : ∃ call, task = .query (.called call)
        · obtain ⟨call, rfl⟩ := reads
          have bound := (readsAlone_called world index input call found alone).2
          exact moved_reading env world index input _ found call rfl outside bound passed
        · exact moved_outside env world index input task found
            (outside task (List.mem_of_getElem? found))
            (fun call is => reads ⟨call, is⟩) (.idle outside passed)
      | read holder q raw here others bound current passed =>
        by_cases same : index = holder
        · subst same
          cases found.symm.trans here
          exact moved_stamped env world index input _ found q raw rfl others bound current
            passed
        · exact moved_outside env world index input task found (others index task same found)
            (nobody_reads world index input task found alone holder _ here rfl)
            (.read holder q raw here others bound current passed)
      | entered holder handle q raw here others bound passed =>
        by_cases same : index = holder
        · subst same
          cases found.symm.trans here
          simp only [System.advanced, querying, advance, advanceQuery]
          refine .idle (outside_left world.tasks index _ _ found others rfl) ?_
          intro time member
          exact lt_of_le_of_lt (passed time member) (witness_passes _ _ bound)
        · exact moved_outside env world index input task found (others index task same found)
            (nobody_reads world index input task found alone holder _ here rfl)
            (.entered holder handle q raw here others bound passed)

omit [DecidableEq Id] [DecidableEq Address] in
theorem oneAtATime_apart (turn : Turn (Call Id Address) Input Change)
    (held : OneAtATime world.shared.clock (times world.shared) world.tasks) :
    ¬ Overwrites world turn := by
  rintro ⟨index, input, q, raw, _, stamped, _, handle, query, _, there, same⟩
  have inUse : q.ltime ∈ times world.shared := by
    rw [← same]
    exact List.mem_map.mpr ⟨query, List.mem_of_getElem? there, rfl⟩
  cases held with
  | idle outside passed => cases outside _ (List.mem_of_getElem? stamped)
  | read holder other bytes here others bound current passed =>
    by_cases equal : index = holder
    · subst equal
      cases stamped.symm.trans here
      exact lt_irrefl _ (passed _ inUse)
    · cases others index _ equal stamped
  | entered holder other message bytes here others bound passed =>
    by_cases equal : index = holder
    · subst equal
      cases stamped.symm.trans here
    · cases others index _ equal stamped

theorem reads_alone_apart
    (alone : ∀ visit ∈ visits (querying env).turn ⟨Registry.empty clock, []⟩ turns,
      readsAlone visit.1 visit.2 = true) :
    ∀ visit ∈ visits (querying env).turn ⟨Registry.empty clock, []⟩ turns,
      ¬ Overwrites visit.1 visit.2 := by
  intro visit member
  obtain ⟨before, after, split, here⟩ := mem_visits _ _ _ _ member
  apply oneAtATime_apart
  rw [here]
  apply run_guarded (querying env).turn (fun world turn => readsAlone world turn = true)
    (fun world => OneAtATime world.shared.clock (times world.shared) world.tasks)
  · intro world turn fine held
    exact turn_oneAtATime env world turn fine held
  · intro earlier there
    apply alone
    rw [split, visits_append]
    exact List.mem_append_left _ there
  · refine .idle ?_ ?_
    · intro task none
      cases none
    · intro time none
      cases none

/-- In every interleaving of calls, answers and timeouts, the queries stay out of each
other's way at every moment if and only if no registration takes the time of a live
query; and none does as long as no call reads the clock while another is between its
read and its witness. -/
theorem queries_separate_iff :
    ((∀ before after, turns = before ++ after →
        Separate (run (querying env).turn ⟨Registry.empty clock, []⟩ before).shared) ↔
      ∀ visit ∈ visits (querying env).turn ⟨Registry.empty clock, []⟩ turns,
        ¬ Overwrites visit.1 visit.2) ∧
    ((∀ visit ∈ visits (querying env).turn ⟨Registry.empty clock, []⟩ turns,
        readsAlone visit.1 visit.2 = true) →
      ∀ visit ∈ visits (querying env).turn ⟨Registry.empty clock, []⟩ turns,
        ¬ Overwrites visit.1 visit.2) := by
  refine ⟨⟨?_, ?_⟩, reads_alone_apart env clock turns⟩
  · intro separate visit member overwrites
    obtain ⟨before, after, split, here⟩ := mem_visits _ _ _ _ member
    have next := separate (before ++ [visit.2]) after (by rw [split]; simp)
    rw [run_append, ← here] at next
    refine overwrites_not_separate env visit.1 visit.2 ?_ overwrites next
    rw [here]
    exact run_aligned env clock before
  · intro apart before after split
    apply run_separate env clock before
    intro visit member
    apply apart
    rw [split, visits_append]
    exact List.mem_append_left _ member

def uptime : Call String Nat := .query ⟨"uptime", [], none⟩

def drawn (id : UInt32) : Input := ⟨5, id, 2, 10⟩

def oneAfterOther : List (Turn (Call String Nat) Input Change) :=
  [.start uptime, .start uptime, .advance 0 (drawn 7), .advance 0 (drawn 7), .advance 0 (drawn 7),
    .advance 1 (drawn 8), .advance 1 (drawn 8), .advance 1 (drawn 8), .change (.timer 0)]

theorem queries_separate_one_after_other :
    (∀ before after, oneAfterOther = before ++ after →
      Separate (run (querying plainEnvironment).turn ⟨Registry.empty 1, []⟩ before).shared) ∧
    (run (querying plainEnvironment).turn ⟨Registry.empty 1, []⟩ oneAfterOther).shared.timers =
      [.removed 1 (some 0), .waiting 2] :=
  ⟨(queries_separate_iff plainEnvironment 1 oneAfterOther).1.mpr
    ((queries_separate_iff plainEnvironment 1 oneAfterOther).2 (by decide)), by decide⟩

/-- Both calls read the clock before either registers. The timeout of the first query
closes the second, and the answer to the first is turned away. -/
theorem same_time_overwritten :
    let reached := run (querying plainEnvironment).turn ⟨Registry.empty 1, []⟩
      [.start uptime, .start uptime, .advance 0 (drawn 7), .advance 1 (drawn 8),
        .advance 0 (drawn 7), .advance 1 (drawn 8)]
    let later := run (querying plainEnvironment).turn reached
      [.start (.answer ⟨1, 7, .ok ⟨"b", 2⟩, 0, []⟩), .advance 2 (drawn 0), .change (.timer 0),
        .change (.timer 0)]
    ¬ Separate reached.shared ∧
    later.tasks[2]? = some (.answer ⟨1, 7, .ok ⟨"b", 2⟩, 0, []⟩ (.ended (.idMismatch 1))) ∧
    later.shared.timers = [.ended 1 (some 1), .waiting 1] ∧
    later.shared.queries.map Query.closed = [false, true] := by
  refine ⟨?_, rfl, by decide, by decide⟩
  intro separate
  have found := separate.kept 0 _ ⟨1, rfl⟩ rfl
  cases found

end Serf.QuerySlots
