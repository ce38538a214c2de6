import Serf.Library.Exclusion
import Serf.RelayDestination

/-!
Concurrent responses to one query. The clones of a `QueryEvent` share a context with the
moment at which the query came in, under a mutex. A call encodes its response, waits for
the mutex, sends the response to the querying node, relays it and only then takes the
moment away; it keeps the mutex until it returns. A relay message that is too large makes
the call return after the send and before the mark, so that the next call sends again.
-/

namespace Serf.AnswerOnce

open Library.Machine Library.Tasks Library.Exclusion QueryHandler QueryAnswers Wire

variable {Id Address : Type} [DecidableEq Id]

/-- The two ways into the context of a query. -/
inductive RespondCall (Id Address : Type) where
  | respond (msg : Bytes)
  | respondWithMessageAndResponse (raw : Bytes) (resp : QueryResponseMessage Id Address)

/-- What the clones of a query event share: `span` and the mutex around it. -/
structure QueryContext where
  span : Option Epoch
  locked : Bool

inductive Phase (Id Address : Type) where
  | called
  | waiting (raw : Bytes) (resp : QueryResponseMessage Id Address)
  | sending (raw : Bytes) (resp : QueryResponseMessage Id Address)
  | relaying (raw : Bytes) (resp : QueryResponseMessage Id Address)
  /-- The relay messages are on their way. -/
  | finishing (raw : Bytes) (relays : List (Relayed Id Address))
  | returned (delivered : Bool) (answered : Answered Id Address)

/-- The call is between the lock of the mutex and its return. -/
def Phase.inside : Phase Id Address → Bool
  | .sending _ _ | .relaying _ _ | .finishing _ _ => true
  | .called | .waiting _ _ | .returned _ _ => false

def Phase.delivered : Phase Id Address → Bool
  | .relaying _ _ | .finishing _ _ => true
  | .returned delivered _ => delivered
  | .called | .waiting _ _ | .sending _ _ => false

/-- The call has not looked at `span` yet. -/
def Phase.early : Phase Id Address → Bool
  | .called | .waiting _ _ => true
  | .sending _ _ | .relaying _ _ | .finishing _ _ | .returned _ _ => false

/-- The call has taken `span` away. -/
def Phase.marked : Phase Id Address → Bool
  | .returned true ⟨_, _, .ok _⟩ => true
  | _ => false

def Phase.stranded : Phase Id Address → Bool
  | .returned true ⟨_, _, .error _⟩ => true
  | _ => false

structure Task (Id Address : Type) where
  call : RespondCall Id Address
  phase : Phase Id Address

section Calls

variable (responder : Responder Id Address) (event : QueryEvent Id Address)

def prepared : RespondCall Id Address →
    Except RespondError (Bytes × QueryResponseMessage Id Address)
  | .respond msg =>
    let resp := createResponse responder event msg
    let message := (Message.queryResponse resp).encodable responder.proto
    match encodeMessageToBytes responder.proto message with
    | .error reason => .error (.encode reason)
    | .ok buf =>
      match checkResponseSize responder buf.length with
      | .error reason => .error reason
      | .ok () => .ok (buf, resp)
  | .respondWithMessageAndResponse raw resp =>
    match checkResponseSize responder raw.length with
    | .error reason => .error reason
    | .ok () => .ok (raw, resp)

def advance (moment : Moment Id Address) (ctx : QueryContext) (task : Task Id Address) :
    QueryContext × Task Id Address :=
  match task.phase with
  | .called =>
    match prepared responder event task.call with
    | .error reason => (ctx, ⟨task.call, .returned false ⟨none, [], .error reason⟩⟩)
    | .ok (raw, resp) => (ctx, ⟨task.call, .waiting raw resp⟩)
  | .waiting raw resp =>
    if ctx.locked then (ctx, task)
    else
      match ctx.span with
      | none => (ctx, ⟨task.call, .returned false ⟨none, [], .error .queryAlreadyResponsed⟩⟩)
      | some start =>
        if event.queryTimeout < moment.now - start then
          (ctx, ⟨task.call, .returned false ⟨none, [], .error .queryTimeout⟩⟩)
        -- The guard is kept until the call returns.
        else ({ ctx with locked := true }, ⟨task.call, .sending raw resp⟩)
  | .sending raw resp =>
    let direct := some (event.fromNode.address, raw)
    if moment.reaches then (ctx, ⟨task.call, .relaying raw resp⟩)
    else ({ ctx with locked := false },
      ⟨task.call, .returned false ⟨direct, [], .error .send⟩⟩)
  | .relaying raw resp =>
    let direct := some (event.fromNode.address, raw)
    match relayResponse responder moment event.relayFactor resp.fromNode resp with
    | .error reason =>
      -- An early return: `span` is not taken away.
      ({ ctx with locked := false },
        ⟨task.call, .returned true ⟨direct, [], .error reason⟩⟩)
    | .ok relays => (ctx, ⟨task.call, .finishing raw relays⟩)
  | .finishing raw relays =>
    let direct := some (event.fromNode.address, raw)
    (⟨none, false⟩, ⟨task.call, .returned true ⟨direct, relays, .ok ()⟩⟩)
  | .returned _ _ => (ctx, task)

/-- Nothing but the calls touches the context. -/
def responding :
    System QueryContext (Task Id Address) (RespondCall Id Address) (Moment Id Address) Empty where
  spawn call := ⟨call, .called⟩
  advance := advance responder event
  change := Empty.elim

/-- The context of an event that is handed out at the given time. -/
def fresh (start : Epoch) : World QueryContext (Task Id Address) := ⟨⟨some start, false⟩, []⟩

def answered (moment : Moment Id Address) (span : Option Epoch) :
    RespondCall Id Address → Option Epoch × Answered Id Address
  | .respond msg => respond responder event msg moment span
  | .respondWithMessageAndResponse raw resp =>
    QueryAnswers.respondWithMessageAndResponse responder event.queryTimeout
      event.fromNode.address event.relayFactor raw resp moment span

theorem answered_prepared (moment : Moment Id Address) (span : Option Epoch)
    (call : RespondCall Id Address) :
    answered responder event moment span call =
      match prepared responder event call with
      | .error reason => refused span reason
      | .ok (raw, resp) =>
        QueryAnswers.respondWithMessageAndResponse responder event.queryTimeout
          event.fromNode.address event.relayFactor raw resp moment span := by
  cases call with
  | respond msg =>
    simp only [answered, respond, prepared]
    cases encodeMessageToBytes responder.proto _ with
    | error reason => rfl
    | ok buf =>
      dsimp only
      cases sized : checkResponseSize responder buf.length with
      | error reason => simp only [QueryAnswers.respondWithMessageAndResponse, sized]
      | ok => rfl
  | respondWithMessageAndResponse raw resp =>
    simp only [answered, prepared]
    cases sized : checkResponseSize responder raw.length with
    | error reason => simp only [QueryAnswers.respondWithMessageAndResponse, sized]
    | ok => rfl

theorem prepared_sized (call : RespondCall Id Address) (raw : Bytes)
    (resp : QueryResponseMessage Id Address)
    (ready : prepared responder event call = .ok (raw, resp)) :
    checkResponseSize responder raw.length = .ok () := by
  cases call with
  | respond msg =>
    simp only [prepared] at ready
    split at ready
    · cases ready
    · split at ready
      · cases ready
      · rename_i sized
        cases ready
        exact sized
  | respondWithMessageAndResponse raw resp =>
    simp only [prepared] at ready
    split at ready
    · cases ready
    · rename_i sized
      cases ready
      exact sized

theorem uninterrupted (moment : Moment Id Address) (span : Option Epoch)
    (call : RespondCall Id Address) :
    let alone := run (responding responder event).turn ⟨⟨span, false⟩, []⟩
      [.start call, .advance 0 moment, .advance 0 moment, .advance 0 moment, .advance 0 moment,
        .advance 0 moment]
    let whole := answered responder event moment span call
    alone.shared = ⟨whole.1, false⟩ ∧
      ∃ delivered, alone.tasks = [⟨call, .returned delivered whole.2⟩] := by
  rw [answered_prepared]
  cases ready : prepared responder event call with
  | error reason => simp [run, responding, advance, ready, refused]
  | ok made =>
    obtain ⟨raw, resp⟩ := made
    have sized := prepared_sized responder event call raw resp ready
    simp only [QueryAnswers.respondWithMessageAndResponse, sized]
    cases span with
    | none => simp [run, responding, advance, ready, refused]
    | some start =>
      by_cases late : event.queryTimeout < moment.now - start
      · simp [run, responding, advance, ready, refused, late]
      cases reached : moment.reaches with
      | false => simp [run, responding, advance, ready, late, reached]
      | true =>
        cases relayed :
          relayResponse responder moment event.relayFactor resp.fromNode resp with
        | error reason => simp [run, responding, advance, ready, late, reached, relayed]
        | ok relays => simp [run, responding, advance, ready, late, reached, relayed]

end Calls

section Conditions

variable (responder : Responder Id Address) (event : QueryEvent Id Address)

def sized : RespondCall Id Address → Bool
  | .respond msg =>
    let resp := createResponse responder event msg
    match encodeMessageToBytes responder.proto
        ((Message.queryResponse resp).encodable responder.proto) with
    | .ok buf => decide (buf.length ≤ responder.queryResponseSizeLimit)
    | .error _ => false
  | .respondWithMessageAndResponse raw _ => decide (raw.length ≤ responder.queryResponseSizeLimit)

/-- The response is not to be relayed: no relays are asked for, the table is too small for
them, or no other member is alive. Or the relay message around it is within the size limit
and can be encoded. -/
def relayFits (moment : Moment Id Address) (resp : QueryResponseMessage Id Address) : Bool :=
  let message := (Message.queryResponse resp).encodable responder.proto
  decide (event.relayFactor = 0) ||
  decide (moment.states.entries.length < event.relayFactor.toNat + 1) ||
  (relayCandidates responder.env.advertiseNode.id moment.states).isEmpty ||
  (decide (encodedRelayMessageLen responder.proto message resp.fromNode ≤
      responder.queryResponseSizeLimit) &&
    (encodeRelayMessageToBytes responder.proto message resp.fromNode).isOk)

/-- What a turn needs so that the calls answer once: a call that begins once the response
is out has a response of its own that fits, and a call that goes on to relay its response
has a relay message that fits. -/
def allowed (world : World QueryContext (Task Id Address)) :
    Turn (RespondCall Id Address) (Moment Id Address) Empty → Bool
  | .advance index moment =>
    match world.tasks[index]? with
    | some ⟨call, .called⟩ =>
      !(world.tasks.any fun other => other.phase.delivered) || sized responder event call
    | some ⟨_, .relaying _ resp⟩ => relayFits responder event moment resp
    | _ => true
  | _ => true

theorem sized_prepared (call : RespondCall Id Address)
    (fits : sized responder event call = true) (reason : RespondError) :
    prepared responder event call ≠ .error reason := by
  cases call with
  | respond msg =>
    simp only [sized] at fits
    split at fits
    · rename_i buf encoded
      simp [prepared, encoded, checkResponseSize, Nat.not_lt.mpr (of_decide_eq_true fits)]
    · cases fits
  | respondWithMessageAndResponse raw resp =>
    simp [prepared, checkResponseSize, Nat.not_lt.mpr (of_decide_eq_true fits)]

theorem relayFits_ok (moment : Moment Id Address) (resp : QueryResponseMessage Id Address)
    (fits : relayFits responder event moment resp = true) :
    ∃ relays, relayResponse responder moment event.relayFactor resp.fromNode resp =
      .ok relays := by
  simp only [relayFits, Bool.or_eq_true, Bool.and_eq_true, decide_eq_true_eq] at fits
  unfold relayResponse
  split
  · exact ⟨_, rfl⟩
  · rename_i asked
    split
    · exact ⟨_, rfl⟩
    · rename_i large
      dsimp only
      split
      · exact ⟨_, rfl⟩
      · rename_i others
        rcases fits with ((none | few) | nobody) | ⟨small, encodes⟩
        · exact absurd none asked
        · exact absurd few large
        · exact absurd nobody others
        · rw [if_neg (Nat.not_lt.mpr small)]
          cases encoded : encodeRelayMessageToBytes responder.proto
              ((Message.queryResponse resp).encodable responder.proto) resp.fromNode with
          | error reason =>
            rw [encoded] at encodes
            cases encodes
          | ok raw => exact ⟨_, rfl⟩

end Conditions

section Steps

variable (responder : Responder Id Address) (event : QueryEvent Id Address)

inductive Refusal : QueryContext → RespondError → Prop where
  | responsed (locked : Bool) : Refusal ⟨none, locked⟩ .queryAlreadyResponsed
  | timeout (start : Epoch) : Refusal ⟨some start, false⟩ .queryTimeout

inductive Step (call : RespondCall Id Address) :
    QueryContext → Phase Id Address → QueryContext → Phase Id Address → Prop where
  | rests (ctx : QueryContext) (phase : Phase Id Address) : Step call ctx phase ctx phase
  | unprepared (ctx : QueryContext) (reason : RespondError)
      (failed : prepared responder event call = .error reason) :
      Step call ctx .called ctx (.returned false ⟨none, [], .error reason⟩)
  | prepares (ctx : QueryContext) (raw : Bytes) (resp : QueryResponseMessage Id Address) :
      Step call ctx .called ctx (.waiting raw resp)
  | refuses (ctx : QueryContext) (raw : Bytes) (resp : QueryResponseMessage Id Address)
      (reason : RespondError) (refusal : Refusal ctx reason) :
      Step call ctx (.waiting raw resp) ctx (.returned false ⟨none, [], .error reason⟩)
  | enters (start : Epoch) (raw : Bytes) (resp : QueryResponseMessage Id Address) :
      Step call ⟨some start, false⟩ (.waiting raw resp) ⟨some start, true⟩ (.sending raw resp)
  | fails (ctx : QueryContext) (raw : Bytes) (resp : QueryResponseMessage Id Address)
      (answered : Answered Id Address) :
      Step call ctx (.sending raw resp) ⟨ctx.span, false⟩ (.returned false answered)
  | delivers (ctx : QueryContext) (raw : Bytes) (resp : QueryResponseMessage Id Address) :
      Step call ctx (.sending raw resp) ctx (.relaying raw resp)
  | strands (ctx : QueryContext) (raw : Bytes) (resp : QueryResponseMessage Id Address)
      (direct : Option (Address × Bytes)) (reason : RespondError) :
      Step call ctx (.relaying raw resp) ⟨ctx.span, false⟩
        (.returned true ⟨direct, [], .error reason⟩)
  | relays (ctx : QueryContext) (raw : Bytes) (resp : QueryResponseMessage Id Address)
      (relays : List (Relayed Id Address)) :
      Step call ctx (.relaying raw resp) ctx (.finishing raw relays)
  | marks (ctx : QueryContext) (raw : Bytes) (direct : Option (Address × Bytes))
      (relays : List (Relayed Id Address)) :
      Step call ctx (.finishing raw relays) ⟨none, false⟩
        (.returned true ⟨direct, relays, .ok ()⟩)

theorem advance_call (moment : Moment Id Address) (ctx : QueryContext) (task : Task Id Address) :
    (advance responder event moment ctx task).2.call = task.call := by
  unfold advance
  split
  · split <;> rfl
  · split
    · rfl
    · split
      · rfl
      · split <;> rfl
  · dsimp only
    split <;> rfl
  · dsimp only
    split <;> rfl
  · rfl
  · rfl

theorem advance_step (moment : Moment Id Address) (ctx : QueryContext) (task : Task Id Address) :
    Step responder event task.call ctx task.phase (advance responder event moment ctx task).1
      (advance responder event moment ctx task).2.phase := by
  obtain ⟨call, phase⟩ := task
  obtain ⟨span, locked⟩ := ctx
  cases phase with
  | called =>
    simp only [advance]
    cases ready : prepared responder event call with
    | error reason => exact .unprepared _ reason ready
    | ok made => exact .prepares _ _ _
  | waiting raw resp =>
    simp only [advance]
    cases locked with
    | true => exact .rests _ _
    | false =>
      cases span with
      | none => exact .refuses _ raw resp _ (.responsed false)
      | some start =>
        by_cases late : event.queryTimeout < moment.now - start
        · simp only [late, Bool.false_eq_true, if_false, if_true]
          exact .refuses _ raw resp _ (.timeout start)
        · simp only [late, Bool.false_eq_true, if_false]
          exact .enters start raw resp
  | sending raw resp =>
    simp only [advance]
    cases moment.reaches with
    | true => exact .delivers _ raw resp
    | false => exact .fails _ raw resp _
  | relaying raw resp =>
    simp only [advance]
    cases relayResponse responder moment event.relayFactor resp.fromNode resp with
    | error reason => exact .strands _ raw resp _ reason
    | ok relays => exact .relays _ raw resp relays
  | finishing raw relays => exact .marks _ raw _ relays
  | returned delivered answered => exact .rests _ _

variable {responder event} {call : RespondCall Id Address} {ctx next : QueryContext}
  {phase after : Phase Id Address} (step : Step responder event call ctx phase next after)

include step

theorem Step.passes : Passes ctx.locked phase.inside next.locked after.inside := by
  cases step with
  | rests | unprepared | prepares | refuses => exact .stays _ _
  | enters => exact .enters
  | fails => exact .leaves _
  | delivers => exact .stays _ _
  | strands => exact .leaves _
  | relays => exact .stays _ _
  | marks => exact .leaves _

theorem Step.spanned (held : ctx.locked = true → ctx.span.isSome = true) :
    next.locked = true → next.span.isSome = true := by
  cases step with
  | enters => exact fun _ => rfl
  | fails | strands | marks => exact fun taken => Bool.noConfusion taken
  | _ => exact held

theorem Step.marking (holder : phase.inside = true → ctx.span.isSome = true) :
    (if next.span.isSome then 0 else 1) + (if phase.marked then 1 else 0) =
      (if ctx.span.isSome then 0 else 1) + if after.marked then 1 else 0 := by
  cases step with
  | marks =>
    rw [holder rfl]
    rfl
  | _ => rfl

end Steps

section Invariant

variable (responder : Responder Id Address) (event : QueryEvent Id Address)

def Task.inside (task : Task Id Address) : Bool := task.phase.inside
def Task.delivered (task : Task Id Address) : Bool := task.phase.delivered
def Task.early (task : Task Id Address) : Bool := task.phase.early
def Task.marked (task : Task Id Address) : Bool := task.phase.marked
def Task.stranded (task : Task Id Address) : Bool := task.phase.stranded

/-- What holds at any time: the mutex excludes, `span` is gone as soon as one call has
taken it away, and the mutex is not held without it. -/
structure Sound (world : World QueryContext (Task Id Address)) : Prop where
  exclusive : Exclusive Task.inside world.shared.locked world.tasks
  marks : world.tasks.countP Task.marked = if world.shared.span.isSome then 0 else 1
  spanned : world.shared.locked = true → world.shared.span.isSome = true

omit [DecidableEq Id] in
theorem fresh_sound (start : Epoch) : Sound (fresh start : World _ (Task Id Address)) :=
  ⟨exclusive_nil, rfl, fun _ => rfl⟩

variable (world : World QueryContext (Task Id Address))

theorem started_sound (call : RespondCall Id Address) (sound : Sound world) :
    Sound ((responding responder event).started world call) where
  exclusive := sound.exclusive.started _ rfl
  marks := by
    rw [System.started, List.countP_append]
    exact sound.marks
  spanned := sound.spanned

theorem advanced_sound (index : Nat) (moment : Moment Id Address) (task : Task Id Address)
    (found : world.tasks[index]? = some task) (sound : Sound world) :
    Sound ((responding responder event).advanced world index moment task) := by
  have step := advance_step responder event moment world.shared task
  have holder : task.phase.inside = true → world.shared.span.isSome = true :=
    fun inside => sound.spanned
      (sound.exclusive.taken task (List.mem_of_getElem? found) inside)
  refine ⟨sound.exclusive.advanced index task _ found _ step.passes, ?_, step.spanned sound.spanned⟩
  have marking := step.marking holder
  have counted := countP_advanced world.tasks index task
    (advance responder event moment world.shared task).2 found Task.marked
  rw [sound.marks] at counted
  exact Nat.add_right_cancel (counted.trans marking.symm)

theorem turn_sound (turn : Turn (RespondCall Id Address) (Moment Id Address) Empty)
    (sound : Sound world) : Sound ((responding responder event).turn world turn).1 :=
  (responding responder event).turn_preserves Sound (started_sound responder event)
    (advanced_sound responder event) (fun _ change _ => change.elim) world turn sound

omit [DecidableEq Id] in
theorem Phase.delivered_cases (phase : Phase Id Address) (delivered : phase.delivered = true) :
    phase.stranded = true ∨ phase.marked = true ∨ phase.inside = true := by
  cases phase with
  | called | waiting | sending => cases delivered
  | relaying | finishing => exact Or.inr (Or.inr rfl)
  | returned sent answered =>
    obtain ⟨direct, relays, result⟩ := answered
    cases delivered
    cases result with
    | error reason => exact Or.inl rfl
    | ok => exact Or.inr (Or.inl rfl)

omit [DecidableEq Id] in
theorem delivered_count (tasks : List (Task Id Address)) :
    tasks.countP Task.delivered ≤
      tasks.countP Task.stranded + (tasks.countP Task.marked + tasks.countP Task.inside) := by
  induction tasks with
  | nil => exact Nat.zero_le _
  | cons task rest ih =>
    have cases := task.phase.delivered_cases
    simp only [List.countP_cons, Task.delivered, Task.stranded, Task.marked, Task.inside] at *
    grind

omit [DecidableEq Id] in
theorem Sound.deliveries {world : World QueryContext (Task Id Address)} (sound : Sound world) :
    world.tasks.countP Task.delivered ≤ world.tasks.countP Task.stranded + 1 := by
  have count := delivered_count world.tasks
  have marks := sound.marks
  have exclusive := sound.exclusive
  have spanned := sound.spanned
  unfold Exclusive at exclusive
  cases present : world.shared.span.isSome with
  | true =>
    -- Nobody has marked; the one inside may have delivered.
    rw [present] at marks
    simp only [if_true] at marks
    split at exclusive <;> omega
  | false =>
    have free : world.shared.locked = false := by
      cases taken : world.shared.locked with
      | false => rfl
      | true => exact absurd (spanned taken) (by simp [present])
    rw [present] at marks
    rw [free] at exclusive
    simp only [Bool.false_eq_true, if_false] at marks exclusive
    omega

end Invariant

section Closed

variable (responder : Responder Id Address) (event : QueryEvent Id Address)

/-- The response is out, and the call that sent it has taken `span` away or is about to. -/
def Closed (world : World QueryContext (Task Id Address)) : Prop :=
  world.shared.span = none ∨ ∃ task ∈ world.tasks, task.inside = true ∧ task.delivered = true

/-- The call has not looked at `span` yet, or has been turned away without a send. -/
def Turned (task : Task Id Address) : Prop :=
  task.early = true ∨
    task.phase = .returned false ⟨none, [], .error .queryAlreadyResponsed⟩

/-- What holds at any time of a run whose turns are allowed: no call fails between its
direct send and its mark. -/
structure Kept (world : World QueryContext (Task Id Address)) : Prop where
  sound : Sound world
  clean : ∀ task ∈ world.tasks, task.stranded = false

variable (world : World QueryContext (Task Id Address))

omit [DecidableEq Id] in
theorem closed_of_delivered (kept : Kept world) (task : Task Id Address)
    (member : task ∈ world.tasks) (delivered : task.delivered = true) : Closed world := by
  rcases task.phase.delivered_cases delivered with stranded | mark | inside
  · cases stranded.symm.trans (kept.clean task member)
  · left
    have positive : 0 < world.tasks.countP Task.marked :=
      List.countP_pos_iff.mpr ⟨task, member, mark⟩
    have marks := kept.sound.marks
    cases span : world.shared.span with
    | none => rfl
    | some start =>
      rw [span] at marks
      simp only [Option.isSome_some, if_true] at marks
      omega
  · exact Or.inr ⟨task, member, inside, delivered⟩

omit [DecidableEq Id] in
theorem Phase.marked_delivered (phase : Phase Id Address) (marked : phase.marked = true) :
    phase.delivered = true := by
  cases phase with
  | returned sent answered =>
    cases sent with
    | true => rfl
    | false => cases marked
  | _ => cases marked

omit [DecidableEq Id] in
theorem Closed.delivered {world : World QueryContext (Task Id Address)} (closed : Closed world)
    (sound : Sound world) : ∃ task ∈ world.tasks, task.phase.delivered = true := by
  rcases closed with gone | ⟨sender, member, _, delivered⟩
  · have marks := sound.marks
    rw [gone] at marks
    obtain ⟨task, member, marked⟩ := List.countP_pos_iff.mp (Nat.lt_of_lt_of_eq Nat.one_pos
      marks.symm)
    exact ⟨task, member, task.phase.marked_delivered marked⟩
  · exact ⟨sender, member, delivered⟩

section Moves

variable {responder event} {call : RespondCall Id Address} {ctx next : QueryContext}
  {phase after : Phase Id Address} (step : Step responder event call ctx phase next after)

include step

theorem Step.gone (none_ : ctx.span = none) : next.span = none := by
  cases step with
  | enters => cases none_
  | marks => rfl
  | _ => exact none_

theorem Step.sender (inside : phase.inside = true) (delivered : phase.delivered = true) :
    after.stranded = true ∨ next.span = none ∨ after.inside = true ∧ after.delivered = true := by
  cases step with
  | rests => exact Or.inr (Or.inr ⟨inside, delivered⟩)
  | unprepared | prepares | refuses | enters => cases inside
  | fails | delivers => cases delivered
  | strands => exact Or.inl rfl
  | relays => exact Or.inr (Or.inr ⟨rfl, rfl⟩)
  | marks => exact Or.inr (Or.inl rfl)

theorem Step.turned (shut : ctx.locked = false → ctx.span = none)
    (fits : phase = .called → sized responder event call = true)
    (turned : Turned ⟨call, phase⟩) : Turned ⟨call, after⟩ := by
  cases step with
  | rests => exact turned
  | unprepared _ reason failed =>
    exact absurd failed (sized_prepared responder event call (fits rfl) reason)
  | prepares => exact Or.inl rfl
  | refuses _ raw resp reason refusal =>
    cases refusal with
    | responsed => exact Or.inr rfl
    | timeout => cases shut rfl
  | enters => cases shut rfl
  | _ =>
    rcases turned with early | is
    · cases early
    · cases is

end Moves

theorem advance_clean (moment : Moment Id Address) (ctx : QueryContext) (task : Task Id Address)
    (clean : task.stranded = false)
    (fits : ∀ raw resp, task.phase = .relaying raw resp →
      relayFits responder event moment resp = true) :
    (advance responder event moment ctx task).2.stranded = false := by
  obtain ⟨call, phase⟩ := task
  cases phase with
  | called =>
    simp only [advance]
    cases prepared responder event call <;> rfl
  | waiting raw resp =>
    simp only [advance]
    split
    · rfl
    · split
      · rfl
      · split <;> rfl
  | sending raw resp =>
    simp only [advance]
    split <;> rfl
  | relaying raw resp =>
    obtain ⟨relays, done⟩ := relayFits_ok responder event moment resp (fits raw resp rfl)
    simp only [advance, done]
    rfl
  | finishing raw relays => rfl
  | returned delivered answered => exact clean

omit [DecidableEq Id] in
theorem Closed.shut {world : World QueryContext (Task Id Address)} (closed : Closed world)
    (sound : Sound world) (free : world.shared.locked = false) : world.shared.span = none := by
  rcases closed with gone | ⟨sender, member, inside, _⟩
  · exact gone
  · cases free.symm.trans (sound.exclusive.taken sender member inside)

theorem turn_kept (turn : Turn (RespondCall Id Address) (Moment Id Address) Empty)
    (fits : allowed responder event world turn = true) (kept : Kept world) :
    Kept ((responding responder event).turn world turn).1 := by
  refine ⟨turn_sound responder event world turn kept.sound, ?_⟩
  cases turn with
  | start call =>
    intro task member
    rcases List.mem_append.mp member with old | new
    · exact kept.clean task old
    · rw [List.mem_singleton.mp new]
      rfl
  | advance index moment =>
    rw [System.turn]
    cases found : world.tasks[index]? with
    | none => exact kept.clean
    | some moved =>
      intro task member
      rcases List.mem_or_eq_of_mem_set member with old | rfl
      · exact kept.clean task old
      · refine advance_clean responder event moment world.shared moved
          (kept.clean moved (List.mem_of_getElem? found)) ?_
        intro raw resp is
        obtain ⟨call, phase⟩ := moved
        cases is
        simpa [allowed, found] using fits
  | change none => exact none.elim

theorem advanced_closed (index : Nat) (moment : Moment Id Address) (task : Task Id Address)
    (found : world.tasks[index]? = some task)
    (clean : (advance responder event moment world.shared task).2.stranded = false)
    (closed : Closed world) :
    Closed ((responding responder event).advanced world index moment task) := by
  have step := advance_step responder event moment world.shared task
  rcases closed with gone | sent
  · exact Or.inl (step.gone gone)
  by_cases sender : task.inside = true ∧ task.delivered = true
  · rcases step.sender sender.1 sender.2 with stranded | gone | still
    · cases stranded.symm.trans clean
    · exact Or.inl gone
    · exact Or.inr ⟨_, mem_advanced _ _ _ _ found, still⟩
  · exact Or.inr (exists_kept _ _ _ _ found
      (fun task => task.inside = true ∧ task.delivered = true)
      (fun sends => absurd sends sender) sent)

structure Settled (followed : Nat → Prop) (world : World QueryContext (Task Id Address)) : Prop
    extends Kept world where
  closed : Closed world
  turned : ∀ i task, followed i → world.tasks[i]? = some task → Turned task

theorem started_settled (followed : Nat → Prop) (world : World QueryContext (Task Id Address))
    (call : RespondCall Id Address) (settled : Settled followed world) :
    Settled followed ((responding responder event).started world call) where
  toKept := turn_kept responder event world (.start call) rfl settled.toKept
  closed := by
    rcases settled.closed with gone | ⟨sender, member, sent⟩
    · exact Or.inl gone
    · exact Or.inr ⟨sender, List.mem_append_left _ member, sent⟩
  turned i task follows there := by
    rw [System.started, List.getElem?_append] at there
    split at there
    · exact settled.turned i task follows there
    · rw [List.getElem?_singleton] at there
      split at there
      · cases there
        exact Or.inl rfl
      · cases there

theorem turn_settled (followed : Nat → Prop) (world : World QueryContext (Task Id Address))
    (turn : Turn (RespondCall Id Address) (Moment Id Address) Empty)
    (fits : allowed responder event world turn = true) (settled : Settled followed world) :
    Settled followed ((responding responder event).turn world turn).1 := by
  cases turn with
  | start call => exact started_settled responder event followed world call settled
  | change none => exact none.elim
  | advance index moment =>
    have kept := turn_kept responder event world (.advance index moment) fits settled.toKept
    rw [System.turn] at kept ⊢
    cases found : world.tasks[index]? with
    | none => exact settled
    | some task =>
      rw [found] at kept
      have step := advance_step responder event moment world.shared task
      have lookup := getElem?_advanced world.tasks index task
        (advance responder event moment world.shared task).2 found
      have clean := kept.clean _ (mem_advanced _ _ _ _ found)
      refine ⟨kept, advanced_closed responder event world index moment task found clean
        settled.closed, ?_⟩
      intro i other follows there
      have here := (lookup i).symm.trans there
      split at here
      · rename_i same
        subst same
        cases here
        have own : task.phase = .called → sized responder event task.call = true := by
          obtain ⟨call, phase⟩ := task
          rintro rfl
          have sent := List.any_eq_true.mpr (settled.closed.delivered settled.sound)
          simpa [allowed, found, sent] using fits
        have moved := step.turned (settled.closed.shut settled.sound) own
          (settled.turned i task follows found)
        rwa [← advance_call responder event moment world.shared task] at moved
      · exact settled.turned i other follows here

end Closed

/-- In a run in which the relay message around each response that goes out fits, and in
which the calls that begin behind the first successful send have responses of their own
that fit, the response goes out once at most, and the calls that had not looked at `span`
when it did are turned away as already answered, without a send. -/
theorem responds_once (responder : Responder Id Address) (event : QueryEvent Id Address)
    (start : Epoch) (before after : List (Turn (RespondCall Id Address) (Moment Id Address) Empty))
    (fits : ∀ visit ∈ visits (responding responder event).turn (fresh start) (before ++ after),
      allowed responder event visit.1 visit.2 = true) :
    let sent := run (responding responder event).turn (fresh start) before
    let later := run (responding responder event).turn sent after
    later.tasks.countP Task.delivered ≤ 1 ∧
    ((∃ task ∈ sent.tasks, task.delivered = true) →
      ∀ (i : Nat) (task : Task Id Address),
        (∀ known : Task Id Address, sent.tasks[i]? = some known → known.early = true) →
        later.tasks[i]? = some task → task.delivered = false ∧
        ∀ delivered answered, task.phase = .returned delivered answered →
          answered.direct = none ∧ answered.relays = [] ∧
          answered.returned = .error .queryAlreadyResponsed) := by
  intro sent later
  rw [visits_append] at fits
  obtain ⟨early, late⟩ := List.forall_mem_append.mp fits
  have first : Kept (fresh start : World _ (Task Id Address)) :=
    ⟨fresh_sound start, fun task member => by cases member⟩
  have keptSent : Kept sent :=
    run_guarded _ (fun world turn => allowed responder event world turn = true) Kept
    (turn_kept responder event) _ before early first
  have keptLater : Kept later :=
    run_guarded _ (fun world turn => allowed responder event world turn = true) Kept
    (turn_kept responder event) sent after late keptSent
  refine ⟨?_, ?_⟩
  · have count := keptLater.sound.deliveries
    have none : later.tasks.countP Task.stranded = 0 :=
      List.countP_eq_zero.mpr fun task member => by simp [keptLater.clean task member]
    omega
  rintro ⟨sender, member, delivered⟩ i task follows there
  have settled : Settled
      (fun i => ∀ known : Task Id Address, sent.tasks[i]? = some known → known.early = true)
      later :=
    run_guarded _ (fun world turn => allowed responder event world turn = true) _
      (turn_settled responder event _) sent after late
      ⟨keptSent, closed_of_delivered sent keptSent sender member delivered,
        fun i task follows known => Or.inl (follows task known)⟩
  rcases settled.turned i task follows there with waits | is
  · obtain ⟨call, phase⟩ := task
    cases phase with
    | called | waiting => exact ⟨rfl, fun _ _ returned => by cases returned⟩
    | _ => cases waits
  · refine ⟨by rw [Task.delivered, is]; rfl, ?_⟩
    intro delivered answered returned
    cases is.symm.trans returned
    exact ⟨rfl, rfl, rfl⟩

section Cluster

open RelayDestination

def wholeCall (i : Nat) : List (Turn (RespondCall UInt8 UInt8) (Moment UInt8 UInt8) Empty) :=
  [.start (.respond [9]), .advance i quietMoment, .advance i quietMoment, .advance i quietMoment,
    .advance i quietMoment, .advance i quietMoment]

theorem responds_once_second :
    let system := responding second (relayedEvent (clusterNode 1 10))
    let sent := run system.turn (fresh 0) (wholeCall 0)
    let later := run system.turn sent (wholeCall 1)
    (∀ visit ∈ visits system.turn (fresh 0) (wholeCall 0 ++ wholeCall 1),
      allowed second (relayedEvent (clusterNode 1 10)) visit.1 visit.2 = true) ∧
    later.tasks.countP Task.delivered = 1 ∧
    ∀ task, later.tasks[1]? = some task → task.delivered = false := by
  intro system sent later
  have fits : ∀ visit ∈ visits system.turn (fresh 0) (wholeCall 0 ++ wholeCall 1),
      allowed second (relayedEvent (clusterNode 1 10)) visit.1 visit.2 = true := by
    decide +kernel
  have delivered : ∃ task ∈ sent.tasks, task.delivered = true := by decide +kernel
  have single : sent.tasks.length ≤ 1 := by decide +kernel
  obtain ⟨atMost, turned⟩ := responds_once second (relayedEvent (clusterNode 1 10)) 0
    (wholeCall 0) (wholeCall 1) fits
  refine ⟨fits, Nat.le_antisymm atMost (by decide +kernel), ?_⟩
  intro task there
  refine (turned delivered 1 task ?_ there).1
  intro known found
  cases (List.getElem?_eq_none single).symm.trans found

def tight : Responder UInt8 UInt8 := { second with queryResponseSizeLimit := 20 }

theorem responds_twice :
    let reached := run (responding tight (relayedEvent (clusterNode 1 10))).turn (fresh 0)
      (wholeCall 0 ++ wholeCall 1)
    reached.tasks.countP Task.delivered = 2 ∧ reached.tasks.countP Task.stranded = 2 ∧
    reached.shared.span = some 0 := by
  decide +kernel

end Cluster

end Serf.AnswerOnce
