import Serf.Library.Slots
import Serf.LamportClock

/-!
`handle_user_event` and `user_event`. The dedup store is a ring of slots
indexed by the Lamport time modulo its size; each slot keeps the events seen
for it, without the coalesce flag. The clock is witnessed before the lock is
taken and read again under it; the section under the lock is
`recordUserEvent`. A decoded message reference carries the same fields as the
owned message and its conversion cannot fail, so one form stands for both.
-/

namespace Serf.EventHandler

open Library.Window Library.Slots LamportClock

structure EventCore where
  minTime : LamportTime
  buffer : SlotRing UserEvents

/-- The event clock next to the store it guards. -/
structure EventState where
  clock : LamportTime
  core : EventCore

/-- What a call leaves, what it sends on `event_tx` and what it returns; a call
that panics returns nothing. -/
structure EventOutcome where
  state : EventState
  sent : List UserEventMessage
  returned : Option Bool

def toUserEvent (msg : UserEventMessage) : UserEvent := ⟨msg.name, msg.payload⟩

def recordUserEvent (curTime : LamportTime) (msg : UserEventMessage) (core : EventCore) :
    Option (EventCore × Bool) :=
  if msg.ltime < core.minTime then some (core, false)
  else if TooOld curTime (size core.buffer) msg.ltime then some (core, false)
  else
    match readSlot core.buffer msg.ltime with
    | none => none
    | some (some seen) =>
      if toUserEvent msg ∈ seen.events then some (core, false)
      else
        -- The time of the slot stays, also when it is not the time of the message.
        let slot := { seen with events := seen.events ++ [toUserEvent msg] }
        some ({ core with buffer := writeSlot core.buffer msg.ltime slot }, true)
    | some none =>
      let slot := ⟨msg.ltime, [toUserEvent msg]⟩
      some ({ core with buffer := writeSlot core.buffer msg.ltime slot }, true)

def handleUserEvent (msg : UserEventMessage) (state : EventState) : EventOutcome :=
  let clock := witness state.clock msg.ltime
  match recordUserEvent clock msg state.core with
  | none => ⟨{ state with clock := clock }, [], none⟩
  | some (core, accepted) => ⟨⟨clock, core⟩, if accepted then [msg] else [], some accepted⟩

def userEventSizeLimit : Nat := 9 * 1024

inductive UserEventError where
  | userEventLimitTooLarge (limit : Nat)
  | userEventTooLarge (limit : Nat)
  | rawUserEventTooLarge (len : Nat)
  | encode (reason : String)
  deriving DecidableEq

/-- The configured limit and the message codec that `user_event` uses. -/
structure EventLimits where
  maxUserEventSize : Nat
  encodedMessageLen : UserEventMessage → Nat
  encodeMessageToBytes : UserEventMessage → Except String Bytes

/-- The part of `user_event` before the clock moves: the message it stamps and
the bytes it will broadcast, or the error of the first check that fails. -/
def stampUserEvent (limits : EventLimits) (clock : LamportTime) (name : String)
    (payload : Bytes) (coalesce : Bool) : Except UserEventError (UserEventMessage × Bytes) :=
  let sizeBeforeEncoding := name.utf8ByteSize + payload.length
  if limits.maxUserEventSize < sizeBeforeEncoding then
    .error (.userEventLimitTooLarge limits.maxUserEventSize)
  else if userEventSizeLimit < sizeBeforeEncoding then
    .error (.userEventTooLarge userEventSizeLimit)
  else
    let msg := ⟨clock, name, payload, coalesce⟩
    let len := limits.encodedMessageLen msg
    if limits.maxUserEventSize < len then .error (.rawUserEventTooLarge len)
    else if userEventSizeLimit < len then .error (.rawUserEventTooLarge len)
    else
      match limits.encodeMessageToBytes msg with
      | .error reason => .error (.encode reason)
      | .ok raw => .ok (msg, raw)

/-- The outcome of the local handling and the broadcast queued after it. -/
def userEvent (limits : EventLimits) (name : String) (payload : Bytes) (coalesce : Bool)
    (state : EventState) : Except UserEventError (EventOutcome × Bytes) :=
  match stampUserEvent limits state.clock name payload coalesce with
  | .error reason => .error reason
  | .ok (msg, raw) =>
    .ok (handleUserEvent msg { state with clock := increment state.clock }, raw)

/-- A user event that reaches the node by gossip, or a call of `user_event`. -/
inductive EventOp where
  | receive (msg : UserEventMessage)
  | userEvent (name : String) (payload : Bytes) (coalesce : Bool)

/-- The message that an operation passes to `handle_user_event`, and the state
at that call. -/
def handled (limits : EventLimits) (state : EventState) :
    EventOp → Option (UserEventMessage × EventState)
  | .receive msg => some (msg, state)
  | .userEvent name payload coalesce =>
    match stampUserEvent limits state.clock name payload coalesce with
    | .error _ => none
    | .ok (msg, _) => some (msg, { state with clock := increment state.clock })

def eventStep (limits : EventLimits) (state : EventState) (op : EventOp) :
    EventState × Except UserEventError EventOutcome :=
  match op with
  | .receive msg => ((handleUserEvent msg state).state, .ok (handleUserEvent msg state))
  | .userEvent name payload coalesce =>
    match userEvent limits name payload coalesce state with
    | .error reason => (state, .error reason)
    | .ok (outcome, _) => (outcome.state, .ok outcome)

def roomy : EventLimits := ⟨512, fun _ => 16, fun _ => .ok []⟩

end Serf.EventHandler
