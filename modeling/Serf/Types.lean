import Serf.Library.Collections

/-!
The data model of `serf-core/src/types`. Lamport times are the 64-bit words of
the source. A `HashMap` or `IndexMap` is a `Table`, whose entry order stands for
whatever order the map is visited in. Wall-clock instants and durations count
nanoseconds. Bytes on the wire are lists of octets; the codecs themselves and
the coordinate client are not part of this module.
-/

namespace Serf

open Library.Collections

abbrev LamportTime := UInt64
abbrev Epoch := Nat
abbrev Duration := Nat
abbrev Bytes := List UInt8
abbrev Tags := Table String String

abbrev u64Max : LamportTime := 18446744073709551615

inductive DecodeError where
  | duplicateField (type field : String) (tag : UInt8)
  | missingField (type field : String)
  | bufferUnderflow
  | custom (message : String)
  deriving DecidableEq

structure Node (Id Address : Type) where
  id : Id
  address : Address
  deriving DecidableEq

/-- The part of memberlist's `NodeState` that the notification handlers read. -/
structure NodeState (Id Address : Type) where
  node : Node Id Address
  metaBytes : Bytes

inductive ProtocolVersion where
  | v1
  | unknown (value : UInt8)
  deriving DecidableEq

inductive DelegateVersion where
  | v1
  | unknown (value : UInt8)
  deriving DecidableEq

inductive MemberlistProtocolVersion where
  | v1
  | unknown (value : UInt8)
  deriving DecidableEq

inductive MemberlistDelegateVersion where
  | v1
  | unknown (value : UInt8)
  deriving DecidableEq

inductive MemberStatus where
  | none
  | alive
  | leaving
  | left
  | failed
  | unknown (value : UInt8)
  deriving DecidableEq

structure Member (Id Address : Type) where
  node : Node Id Address
  tags : Tags
  status : MemberStatus
  memberlistProtocolVersion : MemberlistProtocolVersion
  memberlistDelegateVersion : MemberlistDelegateVersion
  protocolVersion : ProtocolVersion
  delegateVersion : DelegateVersion
  deriving DecidableEq

/-- A member with the Lamport time of the last message about it and the wall
time at which it was marked as gone. -/
structure MemberState (Id Address : Type) where
  member : Member Id Address
  statusTime : LamportTime
  leaveTime : Option Epoch
  deriving DecidableEq

inductive MessageType where
  | leave
  | join
  | pushPull
  | userEvent
  | query
  | queryResponse
  | conflictResponse
  | relay
  | keyRequest
  | keyResponse
  | unknown (value : UInt8)
  deriving DecidableEq

structure NodeIntent where
  ty : MessageType
  wallTime : Epoch
  ltime : LamportTime
  deriving DecidableEq

structure Members (Id Address : Type) where
  states : Table Id (MemberState Id Address)
  recentIntents : Table Id NodeIntent
  leftMembers : List (MemberState Id Address)
  failedMembers : List (MemberState Id Address)

def Members.empty {Id Address : Type} : Members Id Address := ⟨∅, ∅, [], []⟩

structure JoinMessage (Id : Type) where
  ltime : LamportTime
  id : Id
  deriving DecidableEq

structure LeaveMessage (Id : Type) where
  ltime : LamportTime
  id : Id
  prune : Bool
  deriving DecidableEq

structure UserEvent where
  name : String
  payload : Bytes
  deriving DecidableEq

structure UserEvents where
  ltime : LamportTime
  events : List UserEvent
  deriving DecidableEq

structure UserEventMessage where
  ltime : LamportTime
  name : String
  payload : Bytes
  cc : Bool
  deriving DecidableEq

structure PushPullMessage (Id : Type) where
  ltime : LamportTime
  statusLtimes : Table Id LamportTime
  leftMembers : List Id
  eventLtime : LamportTime
  events : List UserEvents
  queryLtime : LamportTime

inductive MemberEventType where
  | join
  | leave
  | failed
  | update
  | reap
  deriving DecidableEq

structure MemberEvent (Id Address : Type) where
  ty : MemberEventType
  members : List (Member Id Address)
  deriving DecidableEq

inductive SerfState where
  | alive
  | leaving
  | left
  | shutdown
  deriving DecidableEq

/-- What the membership handlers read from the options, the memberlist and the
delegate. `decodeTags` is the tag codec applied to the node meta data;
`reconnectTimeout` is the delegate's override, absent without a delegate. -/
structure Environment (Id Address : Type) where
  localId : Id
  protocolVersion : ProtocolVersion
  delegateVersion : DelegateVersion
  memberlistProtocolVersion : MemberlistProtocolVersion
  memberlistDelegateVersion : MemberlistDelegateVersion
  decodeTags : Bytes → Except DecodeError Tags
  reconnectTimeout : Option (Member Id Address → Duration → Duration)

end Serf
