import Serf.QueryResponses

/-!
What reaches the reader of a query. An answer passes the duplicate check under the
read lock and is sent under the write lock, and between the two any number of other
answers, a close or a timeout may come; so nothing rests on the first check. What
carries the results is the state of each channel under its lock, together with where
each answer under way came from.
-/

namespace Serf.AnswerDelivery

open Library.Collections Library.Machine Library.Tasks Library.Delivery
open LamportClock QueryHandler QueryResponses

variable {Id Address : Type} [DecidableEq Id] [DecidableEq Address]

structure Answers (arrivals : QueryResponseMessageRef Id Address → Prop) (fixed : QueryResponse)
    (ack : Bool) (resp : QueryResponseMessageRef Id Address) : Prop where
  arrived : arrivals resp
  ltime : resp.ltime = fixed.ltime
  id : resp.id = fixed.id
  kind : contains resp.flags .ACK = ack

def AckFrom (arrivals : QueryResponseMessageRef Id Address → Prop) (fixed : QueryResponse)
    (node : Node Id Address) : Prop :=
  ∃ resp, Answers arrivals fixed true resp ∧ resp.fromNode = .ok node

def ResponseFrom (arrivals : QueryResponseMessageRef Id Address → Prop) (fixed : QueryResponse)
    (item : NodeResponse Id Address) : Prop :=
  ∃ resp, Answers arrivals fixed false resp ∧ resp.fromNode = .ok item.fromNode ∧
    resp.payload = item.payload

def Crowded (arrivals : QueryResponseMessageRef Id Address → Prop) (fixed : QueryResponse)
    (ack : Bool) : Prop :=
  ∀ senders : List (Node Id Address),
    (∀ resp node, Answers arrivals fixed ack resp → resp.fromNode = .ok node → node ∈ senders) →
    fixed.numNodes < senders.length

/-- The query is open and has room for what would be the first message of its kind from
this sender. -/
def Awaits (query : Query Id Address) (msg : QueryResponseMessage Id Address) : Prop :=
  query.closed = false ∧
    if contains msg.flags .ACK then query.acks.Roomy ∧ msg.fromNode ∉ query.acks.seen
    else query.responses.Roomy ∧ msg.fromNode ∉ query.responses.seen

def Delivered (query : Query Id Address) (msg : QueryResponseMessage Id Address) : Prop :=
  if contains msg.flags .ACK then msg.fromNode ∈ query.acks.sent
  else ⟨msg.fromNode, msg.payload⟩ ∈ query.responses.sent

structure QuerySound (arrivals : QueryResponseMessageRef Id Address → Prop)
    (query : Query Id Address) : Prop where
  acks : query.acks.Sound id (AckFrom arrivals query.fixed) query.fixed.numNodes query.closed
  responses : query.responses.Sound NodeResponse.fromNode (ResponseFrom arrivals query.fixed)
    query.fixed.numNodes query.closed

/-- The message was converted from the one received and carries the time and the id
of the query at the handle. -/
structure Addressed (queries : List (Query Id Address)) (handle : Nat)
    (resp : QueryResponseMessageRef Id Address) (msg : QueryResponseMessage Id Address) :
    Prop where
  converted : fromRef resp = .ok msg
  query : ∃ query, queries[handle]? = some query ∧ resp.ltime = query.fixed.ltime ∧
    resp.id = query.fixed.id

def PhaseSound (arrivals : QueryResponseMessageRef Id Address → Prop)
    (queries : List (Query Id Address)) (resp : QueryResponseMessageRef Id Address) :
    AnswerPhase Id Address → Prop
  | .found handle msg | .checked handle msg => Addressed queries handle resp msg
  | .ended (.returned handle msg false) =>
    ∃ query, queries[handle]? = some query ∧
      Crowded arrivals query.fixed (contains msg.flags .ACK)
  | _ => True

def TaskSound (arrivals : QueryResponseMessageRef Id Address → Prop)
    (queries : List (Query Id Address)) : Activity Id Address → Prop
  | .query _ => True
  | .answer resp phase => arrivals resp ∧ PhaseSound arrivals queries resp phase

structure Tracked (arrivals : QueryResponseMessageRef Id Address → Prop)
    (registry : Registry Id Address) (tasks : List (Activity Id Address)) : Prop where
  queries : ∀ (handle : Nat) query, registry.queries[handle]? = some query →
    QuerySound arrivals query
  table : ∀ ltime handle, registry.responses.lookup ltime = some handle →
    ∃ query, registry.queries[handle]? = some query ∧ query.fixed.ltime = ltime
  tasks : ∀ task ∈ tasks, TaskSound arrivals registry.queries task

section Sending

variable (arrivals : QueryResponseMessageRef Id Address → Prop) (query : Query Id Address)
  (sound : QuerySound arrivals query)

omit [DecidableEq Id] [DecidableEq Address] in
theorem fromRef_fields (resp : QueryResponseMessageRef Id Address)
    (msg : QueryResponseMessage Id Address) (converted : fromRef resp = .ok msg) :
    resp.fromNode = .ok msg.fromNode ∧ resp.flags = msg.flags ∧ resp.payload = msg.payload := by
  unfold fromRef at converted
  split at converted
  · cases converted
  · rename_i node sender
    cases converted
    exact ⟨sender, rfl, rfl⟩

omit [DecidableEq Id] [DecidableEq Address] in
theorem fromQuery_sound (q : QueryMessage Id Address) (numNodes : Nat) (now : Epoch)
    (made : fromQuery q numNodes now = some query) : QuerySound arrivals query := by
  unfold fromQuery at made
  split at made
  · cases made
  · cases made
    constructor
    · simp only
      split
      · exact Inbox.ofCapacity_sound _ _ _
      · exact Inbox.absent_sound _ _ _
    · exact Inbox.ofCapacity_sound _ _ _

include sound

omit [DecidableEq Id] [DecidableEq Address] in
theorem close_sound : QuerySound arrivals query.close := by
  unfold Query.close
  split
  · exact sound
  · exact ⟨Inbox.close_sound _ _ _ _ _ sound.acks, Inbox.close_sound _ _ _ _ _ sound.responses⟩

variable (resp : QueryResponseMessageRef Id Address) (msg : QueryResponseMessage Id Address)
  (arrived : arrivals resp) (converted : fromRef resp = .ok msg)
  (ltime : resp.ltime = query.fixed.ltime) (id : resp.id = query.fixed.id)

include arrived converted ltime id

theorem send_sound : QuerySound arrivals (query.send msg).1 := by
  obtain ⟨sender, flags, payload⟩ := fromRef_fields resp msg converted
  unfold Query.send
  split
  · rename_i ack
    refine ⟨?_, sound.responses⟩
    apply Inbox.offer_sound _ _ _ _ _ sound.acks
    exact ⟨resp, ⟨arrived, ltime, id, flags ▸ ack⟩, sender⟩
  · rename_i response
    refine ⟨sound.acks, ?_⟩
    apply Inbox.offer_sound NodeResponse.fromNode _ _ _ _ sound.responses
      ⟨msg.fromNode, msg.payload⟩
    exact ⟨resp, ⟨arrived, ltime, id, by simpa [flags] using response⟩, sender, payload⟩

theorem send_fails (failed : (query.send msg).2 = false) :
    Crowded arrivals query.fixed (contains msg.flags .ACK) := by
  obtain ⟨sender, flags, payload⟩ := fromRef_fields resp msg converted
  intro senders covers
  unfold Query.send at failed
  split at failed
  · rename_i ack
    rw [ack] at covers
    apply Inbox.offer_fails _ _ _ _ _ sound.acks msg.fromNode _ senders _ failed
    · exact ⟨resp, ⟨arrived, ltime, id, flags ▸ ack⟩, sender⟩
    · rintro node ⟨other, answers, same⟩
      exact covers other node answers same
  · rename_i response
    rw [Bool.eq_false_iff.mpr response] at covers
    apply Inbox.offer_fails NodeResponse.fromNode _ _ _ _ sound.responses
      ⟨msg.fromNode, msg.payload⟩ _ senders _ failed
    · exact ⟨resp, ⟨arrived, ltime, id, by simpa [flags] using response⟩, sender, payload⟩
    · rintro item ⟨other, answers, same, _⟩
      exact covers other item.fromNode answers same

omit arrived converted ltime id in
theorem send_delivers (awaits : Awaits query msg) : Delivered (query.send msg).1 msg := by
  obtain ⟨isOpen, room⟩ := awaits
  unfold Query.send Delivered
  split
  · rename_i ack
    rw [if_pos ack] at room
    exact Inbox.offer_roomy _ _ _ _ _ sound.acks msg.fromNode isOpen room.1 room.2
  · rename_i response
    rw [if_neg response] at room
    exact Inbox.offer_roomy NodeResponse.fromNode _ _ _ _ sound.responses
      ⟨msg.fromNode, msg.payload⟩ isOpen room.1 room.2

end Sending

section Turns

variable (arrivals : QueryResponseMessageRef Id Address → Prop)
  (world : World (Registry Id Address) (Activity Id Address))
  (turn : Turn (Call Id Address) Input Change) (after : Registry Id Address)

theorem queryStep_sound (tracked : Tracked arrivals world.shared world.tasks) (handle : Nat)
    (query next : Query Id Address) (there : world.shared.queries[handle]? = some query)
    (step : QueryStep world.tasks handle query next) : QuerySound arrivals next := by
  have sound := tracked.queries handle query there
  cases step with
  | same => exact sound
  | close => exact close_sound arrivals query sound
  | takeAck => exact ⟨Inbox.take_sound _ _ _ _ _ sound.acks, sound.responses⟩
  | takeResponse => exact ⟨sound.acks, Inbox.take_sound _ _ _ _ _ sound.responses⟩
  | send resp msg waiting =>
    obtain ⟨arrived, addressed⟩ := tracked.tasks _ waiting
    obtain ⟨other, here, ltime, id⟩ := addressed.query
    cases there.symm.trans here
    exact send_sound arrivals query sound resp msg arrived addressed.converted ltime id

variable (effect : Effect world turn after)

include effect

theorem effect_fixed (handle : Nat) (known : QueryResponse → Prop)
    (held : ∃ query, world.shared.queries[handle]? = some query ∧ known query.fixed) :
    ∃ query, after.queries[handle]? = some query ∧ known query.fixed := by
  obtain ⟨query, there, fact⟩ := held
  obtain ⟨next, here, step⟩ := effect_keeps world turn after effect handle query there
  refine ⟨next, here, ?_⟩
  rw [queryStep_fixed world.tasks handle query next step]
  exact fact

theorem effect_taskSound (task : Activity Id Address)
    (sound : TaskSound arrivals world.shared.queries task) :
    TaskSound arrivals after.queries task := by
  have addressed : ∀ handle resp msg, Addressed world.shared.queries handle resp msg →
      Addressed after.queries handle resp msg := by
    intro handle resp msg held
    exact ⟨held.converted, effect_fixed world turn after effect handle
      (fun fixed => resp.ltime = fixed.ltime ∧ resp.id = fixed.id) held.query⟩
  cases task with
  | query phase => trivial
  | answer resp phase =>
    refine ⟨sound.1, ?_⟩
    have held := sound.2
    cases phase with
    | arrived => trivial
    | found handle msg => exact addressed handle resp msg held
    | checked handle msg => exact addressed handle resp msg held
    | ended ending =>
      cases ending with
      | returned handle msg delivered =>
        cases delivered with
        | true => trivial
        | false =>
          exact effect_fixed world turn after effect handle
            (fun fixed => Crowded arrivals fixed (contains msg.flags .ACK)) held
      | _ => trivial

theorem effect_table
    (held : ∀ ltime handle, world.shared.responses.lookup ltime = some handle →
      ∃ query, world.shared.queries[handle]? = some query ∧ query.fixed.ltime = ltime)
    (ltime : LamportTime) (handle : Nat) (found : after.responses.lookup ltime = some handle) :
    ∃ query, after.queries[handle]? = some query ∧ query.fixed.ltime = ltime := by
  have kept : world.shared.responses.lookup ltime = some handle →
      ∃ query, after.queries[handle]? = some query ∧ query.fixed.ltime = ltime := by
    intro known
    exact effect_fixed world turn after effect handle (fun fixed => fixed.ltime = ltime)
      (held ltime handle known)
  cases effect with
  | clock time => exact kept found
  | register index input q raw query is stamped made =>
    simp only [Registry.register, lookup_insert_eq] at found
    split at found
    · rename_i same
      cases found
      exact ⟨query, by simp [Registry.register], same.symm⟩
    · exact kept found
  | update target f allowed => exact kept found
  | fire own time waiting =>
    simp only [Registry.fire, lookup_erase_eq] at found
    split at found
    · cases found
    · exact kept found
  | expire own time taken removed =>
    cases taken with
    | none => exact kept found
    | some target => exact kept found

theorem effect_tracked (tracked : Tracked arrivals world.shared world.tasks) :
    Tracked arrivals after world.tasks where
  queries handle next there := by
    rcases effect_origin world turn after effect handle next there with
      ⟨query, known, step⟩ | ⟨q, numNodes, now, made⟩
    · exact queryStep_sound arrivals world tracked handle query next known step
    · exact fromQuery_sound arrivals next q numNodes now made
  table := effect_table world turn after effect tracked.table
  tasks task member := effect_taskSound arrivals world turn after effect task
    (tracked.tasks task member)

end Turns

section Steps

variable (env : QueryEnvironment Id Address) (arrivals : QueryResponseMessageRef Id Address → Prop)
  (registry : Registry Id Address) (tasks : List (Activity Id Address))
  (tracked : Tracked arrivals registry tasks)

include tracked

omit [DecidableEq Id] [DecidableEq Address] in
theorem route_sound (resp : QueryResponseMessageRef Id Address) :
    PhaseSound arrivals registry.queries resp (route registry resp) := by
  unfold route
  cases found : registry.responses.lookup resp.ltime with
  | none => trivial
  | some handle =>
    obtain ⟨query, there, ltime⟩ := tracked.table resp.ltime handle found
    simp only [there]
    split
    · trivial
    · rename_i id
      cases converted : fromRef resp with
      | error reason => trivial
      | ok msg => exact ⟨converted, query, there, ltime.symm, (not_ne_iff.mp id).symm⟩

theorem advance_sound (input : Input) (task : Activity Id Address) (member : task ∈ tasks) :
    TaskSound arrivals registry.queries (advance env input registry task).2 := by
  have sound := tracked.tasks task member
  cases task with
  | query phase => trivial
  | answer resp phase =>
    refine ⟨sound.1, ?_⟩
    have held := sound.2
    cases phase with
    | arrived => exact route_sound arrivals registry tasks tracked resp
    | found handle msg =>
      obtain ⟨query, there, _⟩ := held.query
      simp only [there, check]
      split
      · trivial
      · split
        · trivial
        · exact held
    | checked handle msg =>
      obtain ⟨query, there, ltime, id⟩ := held.query
      simp only [there]
      cases failed : (query.send msg).2 with
      | true => trivial
      | false =>
        exact ⟨query, there, send_fails arrivals query (tracked.queries handle query there)
          resp msg sound.1 held.converted ltime id failed⟩
    | ended ending => exact held

end Steps

variable (env : QueryEnvironment Id Address) (arrivals : QueryResponseMessageRef Id Address → Prop)
  (world : World (Registry Id Address) (Activity Id Address))

theorem turn_tracked (turn : Turn (Call Id Address) Input Change)
    (known : ∀ resp, turn = .start (.answer resp) → arrivals resp)
    (tracked : Tracked arrivals world.shared world.tasks) :
    Tracked arrivals ((querying env).turn world turn).1.shared
      ((querying env).turn world turn).1.tasks := by
  have after := effect_tracked arrivals world turn _ (turn_effect world turn env) tracked
  refine ⟨after.queries, after.table, ?_⟩
  intro task member
  cases turn with
  | start call =>
    rcases List.mem_append.mp member with old | new
    · exact after.tasks task old
    · rw [List.mem_singleton.mp new]
      cases call with
      | query call => trivial
      | answer resp => exact ⟨known resp rfl, trivial⟩
  | advance index input =>
    have effect := turn_effect world (.advance index input) env
    rw [System.turn] at member effect after ⊢
    cases found : world.tasks[index]? with
    | none =>
      rw [found] at member
      exact tracked.tasks task member
    | some moving =>
      rw [found] at member effect after
      rcases List.mem_or_eq_of_mem_set member with old | rfl
      · exact after.tasks task old
      · apply effect_taskSound arrivals world _ _ effect
        exact advance_sound env arrivals world.shared world.tasks tracked input moving
          (List.mem_of_getElem? found)
  | change c => exact after.tasks task member

theorem run_tracked (env : QueryEnvironment Id Address)
    (arrivals : QueryResponseMessageRef Id Address → Prop) (clock : LamportTime)
    (turns : List (Turn (Call Id Address) Input Change))
    (known : ∀ resp, .start (.answer resp) ∈ turns → arrivals resp) :
    let reached := run (querying env).turn ⟨Registry.empty clock, []⟩ turns
    Tracked arrivals reached.shared reached.tasks := by
  apply run_invariant (querying env).turn
    (fun turn => ∀ resp, turn = .start (.answer resp) → arrivals resp)
    (fun world => Tracked arrivals world.shared world.tasks)
  · intro world turn allowed tracked
    exact turn_tracked env arrivals world turn allowed tracked
  · intro turn member resp same
    exact known resp (same ▸ member)
  · constructor
    · intro handle query there
      cases there
    · intro ltime handle found
      cases found
    · intro task member
      cases member

theorem queryStep_closed (tasks : List (Activity Id Address)) (handle : Nat)
    (query next : Query Id Address) (step : QueryStep tasks handle query next)
    (closed : query.closed = true) :
    next.closed = true ∧ next.acks.sent = query.acks.sent ∧
      next.responses.sent = query.responses.sent := by
  cases step with
  | same => exact ⟨closed, rfl, rfl⟩
  | close =>
    rw [Query.close, if_pos closed]
    exact ⟨closed, rfl, rfl⟩
  | takeAck => exact ⟨closed, Inbox.sent_take _, rfl⟩
  | takeResponse => exact ⟨closed, rfl, Inbox.sent_take _⟩
  | send resp msg waiting =>
    have acks := Inbox.offer_closed id query.acks msg.fromNode
    have responses := Inbox.offer_closed NodeResponse.fromNode query.responses
      ⟨msg.fromNode, msg.payload⟩
    unfold Query.send
    split
    · rw [Query.sendAck, closed]
      exact ⟨rfl, congrArg Inbox.sent acks, rfl⟩
    · rw [Query.sendResponse, closed]
      exact ⟨rfl, rfl, congrArg Inbox.sent responses⟩

theorem run_closed (handle : Nat) (query : Query Id Address)
    (there : world.shared.queries[handle]? = some query) (closed : query.closed = true)
    (turns : List (Turn (Call Id Address) Input Change)) :
    ∃ next, (run (querying env).turn world turns).shared.queries[handle]? = some next ∧
      next.closed = true ∧ next.acks.sent = query.acks.sent ∧
      next.responses.sent = query.responses.sent := by
  apply run_invariant (querying env).turn (fun _ => True) (fun world =>
    ∃ next, world.shared.queries[handle]? = some next ∧ next.closed = true ∧
      next.acks.sent = query.acks.sent ∧ next.responses.sent = query.responses.sent)
  · rintro world turn _ ⟨now, here, done, acks, responses⟩
    obtain ⟨next, found, step⟩ :=
      effect_keeps world turn _ (turn_effect world turn env) handle now here
    obtain ⟨still, sameAcks, sameResponses⟩ := queryStep_closed _ handle now next step done
    exact ⟨next, found, still, sameAcks.trans acks, sameResponses.trans responses⟩
  · intro _ _
    trivial
  · exact ⟨query, there, closed, rfl, rfl⟩

section Delivering

variable (env : QueryEnvironment Id Address) (arrivals : QueryResponseMessageRef Id Address → Prop)
  (world : World (Registry Id Address) (Activity Id Address)) (handle : Nat)
  (query : Query Id Address) (there : world.shared.queries[handle]? = some query)
  (sound : QuerySound arrivals query)

include there sound

theorem checked_delivers (index : Nat) (input : Input)
    (resp : QueryResponseMessageRef Id Address) (msg : QueryResponseMessage Id Address)
    (waiting : world.tasks[index]? = some (.answer resp (.checked handle msg)))
    (awaits : Awaits query msg) :
    ∃ next, ((querying env).turn world (.advance index input)).1.shared.queries[handle]? =
      some next ∧ Delivered next msg := by
  refine ⟨(query.send msg).1, ?_, send_delivers arrivals query sound msg awaits⟩
  simp [System.turn, waiting, System.advanced, querying, advance, advanceAnswer, there,
    Registry.update]

theorem arrived_delivers (resp : QueryResponseMessageRef Id Address)
    (msg : QueryResponseMessage Id Address)
    (running : world.shared.responses.lookup resp.ltime = some handle)
    (id : resp.id = query.fixed.id) (converted : fromRef resp = .ok msg) (awaits : Awaits query msg)
    (first second third : Input) (early : second.now ≤ query.deadline) :
    ∃ next, (run (querying env).turn world (.start (.answer resp) ::
        [first, second, third].map (.advance world.tasks.length))).shared.queries[handle]? =
      some next ∧ Delivered next msg := by
  refine ⟨(query.send msg).1, ?_, send_delivers arrivals query sound msg awaits⟩
  have routed : route world.shared resp = .found handle msg := by
    simp [route, running, there, id, converted]
  have checked : check second.now handle msg query = .checked handle msg := by
    obtain ⟨isOpen, room⟩ := awaits
    have live : query.finished second.now = false := by simp [Query.finished, isOpen, early]
    have new : query.duplicate msg = false := by
      unfold Query.duplicate
      split at room <;> simp_all [Membership.mem]
    simp [check, live, new]
  rw [System.run_started]
  simp [querying, advance, advanceAnswer, routed, there, checked, Registry.update]

end Delivering

/-- What the readers of a query may rely on, given the messages received so far. -/
structure DeliveredOnce (env : QueryEnvironment Id Address)
    (arrivals : QueryResponseMessageRef Id Address → Prop)
    (reached : World (Registry Id Address) (Activity Id Address)) (handle : Nat)
    (query : Query Id Address) : Prop where
  acksOnce : query.acks.sent.Nodup
  responsesOnce : (query.responses.sent.map NodeResponse.fromNode).Nodup
  acksFrom : ∀ node ∈ query.acks.sent, ∃ resp,
    Answers arrivals query.fixed true resp ∧ resp.fromNode = .ok node
  responsesFrom : ∀ item ∈ query.responses.sent, ∃ resp,
    Answers arrivals query.fixed false resp ∧ resp.fromNode = .ok item.fromNode ∧
      resp.payload = item.payload
  acksSeen : ∀ node, node ∈ query.acks.seen ↔ node ∈ query.acks.sent
  responsesSeen : ∀ node, node ∈ query.responses.seen ↔
    node ∈ query.responses.sent.map NodeResponse.fromNode
  afterClose : query.closed = true → ∀ later, ∃ next,
    (run (querying env).turn reached later).shared.queries[handle]? = some next ∧
      next.acks.sent = query.acks.sent ∧ next.responses.sent = query.responses.sent
  room : ∀ (ack : Bool) (senders : List (Node Id Address)),
    senders.length ≤ query.fixed.numNodes →
    (∀ resp node, Answers arrivals query.fixed ack resp → resp.fromNode = .ok node →
      node ∈ senders) →
    ∀ resp msg, contains msg.flags .ACK = ack →
      .answer resp (.ended (.returned handle msg false)) ∉ reached.tasks
  delivers : ∀ index input resp msg,
    reached.tasks[index]? = some (.answer resp (.checked handle msg)) → Awaits query msg →
    ∃ next, ((querying env).turn reached (.advance index input)).1.shared.queries[handle]? =
      some next ∧ Delivered next msg
  reaches : ∀ resp msg, reached.shared.responses.lookup resp.ltime = some handle →
    resp.id = query.fixed.id → fromRef resp = .ok msg → Awaits query msg →
    ∀ first second third : Input, second.now ≤ query.deadline →
      ∃ next, (run (querying env).turn reached (.start (.answer resp) ::
          [first, second, third].map (.advance reached.tasks.length))).shared.queries[handle]? =
        some next ∧ Delivered next msg

/-- In every interleaving of queries, answers, closes, timeouts and readers, each
query's channels get each sender at most once, only from messages with its time and
id and never after its close, its sets are the senders delivered, and no answer is
dropped for lack of room while no more nodes answer than it was made for. The first
answer of a sender that comes to an open query with room is on the channel. -/
theorem answers_delivered_once (clock : LamportTime)
    (turns : List (Turn (Call Id Address) Input Change)) (handle : Nat) (query : Query Id Address)
    (there : (run (querying env).turn ⟨Registry.empty clock, []⟩ turns).shared.queries[handle]? =
      some query) :
    DeliveredOnce env (fun resp => .start (.answer resp) ∈ turns)
      (run (querying env).turn ⟨Registry.empty clock, []⟩ turns) handle query := by
  have tracked := run_tracked env (fun resp => .start (.answer resp) ∈ turns) clock turns
    fun resp member => member
  have sound := tracked.queries handle query there
  constructor
  · simpa using sound.acks.once
  · exact sound.responses.once
  · exact sound.acks.source
  · exact sound.responses.source
  · simpa using sound.acks.seen
  · exact sound.responses.seen
  · intro closed later
    obtain ⟨next, here, _, same⟩ := run_closed env _ handle query there closed later
    exact ⟨next, here, same⟩
  · intro ack senders few covers resp msg kind member
    obtain ⟨_, other, here, crowded⟩ := tracked.tasks _ member
    cases there.symm.trans here
    rw [kind] at crowded
    have many := crowded senders covers
    omega
  · exact checked_delivers env _ _ handle query there sound
  · exact arrived_delivers env _ _ handle query there sound

def ackFromB : QueryResponseMessageRef String Nat := ⟨1, 7, .ok ⟨"b", 2⟩, .ACK, []⟩

def responseFromB : QueryResponseMessageRef String Nat := ⟨1, 7, .ok ⟨"b", 2⟩, 0, [9]⟩

/-- At time 5, a query with id 7 and one other node online. -/
def early : Input := ⟨5, 7, 2, 10⟩

/-- A query, two copies of one acknowledgement that both pass the duplicate check, a
response that is read, a close, and another copy of each. -/
def answeredTwice : List (Turn (Call String Nat) Input Change) :=
  [.start (.query ⟨"uptime", [], some ⟨[], true, 0, 10⟩⟩), .advance 0 early, .advance 0 early,
    .advance 0 early, .start (.answer ackFromB), .start (.answer ackFromB),
    .start (.answer responseFromB), .advance 1 early, .advance 2 early, .advance 3 early,
    .advance 1 early, .advance 2 early, .advance 3 early, .advance 1 early, .advance 2 early,
    .advance 3 early, .change (.takeResponse 0), .change (.close 0), .start (.answer ackFromB),
    .start (.answer responseFromB), .advance 4 early, .advance 5 early, .advance 4 early]

def answeredQuery : Query String Nat where
  fixed := ⟨7, 1, 2, 10, true⟩
  deadline := 15
  closed := true
  acks := ⟨ItemSet.empty.insert ⟨"b", 2⟩, some ⟨2, [⟨"b", 2⟩], 0, true⟩⟩
  responses := ⟨ItemSet.empty.insert ⟨"b", 2⟩, some ⟨2, [⟨⟨"b", 2⟩, [9]⟩], 1, true⟩⟩

theorem answers_delivered_once_acked :
    let reached := run (querying plainEnvironment).turn ⟨Registry.empty 1, []⟩ answeredTwice
    reached.shared.queries[0]? = some answeredQuery ∧
    DeliveredOnce plainEnvironment (fun resp => .start (.answer resp) ∈ answeredTwice) reached 0
      answeredQuery :=
  ⟨by decide, answers_delivered_once plainEnvironment 1 answeredTwice 0 answeredQuery (by decide)⟩

end Serf.AnswerDelivery
