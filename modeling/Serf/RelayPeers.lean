import Serf.MemberTable
import Serf.RelayDestination

/-!
The peers of `relay_response`. The members that may relay are the entries of the table
that are alive and not the local node; `random_members` shuffles them and keeps the
first. The shuffle is given a second time with the panics of its subtraction, its
remainder and its swap, and with the end of the turns as one more failure, and never
comes to one of them.
-/

namespace Serf.RelayPeers

open Library.Collections Library.Encoding MemberTable QueryHandler QueryAnswers
open RelayDestination Wire

section Shuffle

variable {Value : Type}

def checkedRem (value divisor : Nat) : Option Nat :=
  if divisor = 0 then none else some (value % divisor)

def checkedSwap (members : Array Value) (i j : Nat) : Option (Array Value) :=
  if inside : i < members.size ∧ j < members.size then
    some (members.swap i j inside.1 inside.2)
  else none

def randomLoopChecked (k n rounds : Nat) (draws : Nat → UInt32) :
    (turns i : Nat) → Array Value → Option (Array Value)
  | 0, i, members => if i < rounds ∧ i < n then none else some members
  | turns + 1, i, members =>
    if i < rounds ∧ i < n then do
      let left ← checkedSub n i
      let drawn ← checkedRem (draws i).toNat left
      let members ← checkedSwap members i (drawn + i)
      if k ≤ i + 1 ∧ rounds ≤ i + 1 then some members
      else randomLoopChecked k n rounds draws turns (i + 1) members
    else some members

def randomMembersChecked (k : Nat) (draws : Nat → UInt32) (members : Array Value) :
    Option (Array Value) :=
  let n := members.size
  if n = 0 then some #[]
  else (randomLoopChecked k n (3 * n) draws n 0 members).map fun members => members.take k

theorem checkedSwap_eq (members : Array Value) (i j : Nat) (first : i < members.size)
    (second : j < members.size) :
    checkedSwap members i j = some (members.swapIfInBounds i j) := by
  rw [checkedSwap, dif_pos ⟨first, second⟩, Array.swapIfInBounds_def, dif_pos first,
    dif_pos second]

variable (k n rounds : Nat) (draws : Nat → UInt32) (turns i : Nat) (members : Array Value)

theorem randomLoopChecked_eq (size : members.size = n) (enough : n ≤ i + turns) :
    randomLoopChecked k n rounds draws turns i members =
      some (randomLoop k n rounds draws turns i members) := by
  induction turns generalizing i members with
  | zero =>
    have done : ¬ (i < rounds ∧ i < n) := by omega
    rw [randomLoopChecked, if_neg done]
    rfl
  | succ turns ih =>
    rw [randomLoopChecked, randomLoop]
    by_cases more : i < rounds ∧ i < n
    · have left : n - i ≠ 0 := by omega
      have drawn : (draws i).toNat % (n - i) < n - i := Nat.mod_lt _ (by omega)
      have swapped := checkedSwap_eq members i ((draws i).toNat % (n - i) + i) (by omega)
        (by omega)
      simp only [if_pos more, checkedSub, if_pos more.2.le, checkedRem, if_neg left, swapped,
        Option.bind_eq_bind, Option.bind_some]
      by_cases last : k ≤ i + 1 ∧ rounds ≤ i + 1
      · rw [if_pos last, if_pos last]
      · rw [if_neg last, if_neg last]
        exact ih (i + 1) _ (by rw [Array.size_swapIfInBounds, size]) (by omega)
    · rw [if_neg more, if_neg more]

theorem randomMembersChecked_eq :
    randomMembersChecked k draws members = some (randomMembers k draws members) := by
  unfold randomMembersChecked randomMembers
  dsimp only
  split_ifs with empty
  · rfl
  · rw [randomLoopChecked_eq _ _ _ _ _ _ _ rfl (by omega)]
    rfl

theorem swapIfInBounds_perm (i j : Nat) : (members.swapIfInBounds i j).Perm members := by
  rw [Array.swapIfInBounds_def]
  split_ifs with first second
  · exact Array.swap_perm first second
  · exact Array.Perm.refl members
  · exact Array.Perm.refl members

theorem randomLoop_perm : (randomLoop k n rounds draws turns i members).Perm members := by
  induction turns generalizing i members with
  | zero => exact Array.Perm.refl members
  | succ turns ih =>
    rw [randomLoop]
    have swapped := swapIfInBounds_perm members i ((draws i).toNat % (n - i) + i)
    split_ifs
    · exact swapped
    · exact (ih (i + 1) _).trans swapped
    · exact Array.Perm.refl members

theorem randomMembers_picks :
    ∃ shuffled : List Value, shuffled.Perm members.toList ∧
      (randomMembers k draws members).toList = shuffled.take k := by
  unfold randomMembers
  dsimp only
  split_ifs with empty
  · refine ⟨[], ?_, List.take_nil.symm⟩
    rw [Array.eq_empty_of_size_eq_zero empty]
  · refine ⟨(randomLoop k members.size (3 * members.size) draws members.size 0 members).toList,
      (randomLoop_perm _ _ _ draws _ 0 members).toList, ?_⟩
    simp

theorem length_randomMembers :
    (randomMembers k draws members).toList.length = min k members.size := by
  obtain ⟨shuffled, perm, picked⟩ := randomMembers_picks k draws members
  rw [picked, List.length_take, perm.length_eq, Array.length_toList]

end Shuffle

section Peers

variable {Id Address : Type} [DecidableEq Id]

def Eligible (localId : Id) (entry : (_ : Id) × MemberState Id Address) : Prop :=
  entry.2.member.status = .alive ∧ entry.1 ≠ localId

instance (localId : Id) (entry : (_ : Id) × MemberState Id Address) :
    Decidable (Eligible localId entry) :=
  inferInstanceAs (Decidable (_ ∧ _))

def eligible (localId : Id) (states : Table Id (MemberState Id Address)) :
    List ((_ : Id) × MemberState Id Address) :=
  states.entries.filter fun entry => Eligible localId entry

/-- The peers that the relay message is handed to the network for. -/
def sentTo (outcome : Except RespondError (List (Relayed Id Address))) : List (Member Id Address) :=
  match outcome with
  | .ok relays => relays.map Relayed.peer
  | .error _ => []

theorem relayCandidates_eq (localId : Id) (states : Table Id (MemberState Id Address)) :
    relayCandidates localId states =
      (eligible localId states).map fun entry => entry.2.member := by
  unfold relayCandidates eligible
  exact filterMap_ite (Eligible localId) (fun entry => entry.2.member) states.entries

variable (responder : Responder Id Address) (moment : Moment Id Address) (relayFactor : UInt8)
  (node : Node Id Address) (resp : QueryResponseMessage Id Address)

/-- The relay message around the response is within the limit and can be encoded. -/
def Relayable : Prop :=
  encodedRelayMessageLen responder.proto
      ((Message.queryResponse resp).encodable responder.proto) node ≤
    responder.queryResponseSizeLimit ∧
  ∃ raw, encodeRelayMessageToBytes responder.proto
    ((Message.queryResponse resp).encodable responder.proto) node = .ok raw

theorem relayable_iff (laws : QueryLaws responder.proto)
    (limited : responder.queryResponseSizeLimit ≤ maxLen) :
    Relayable responder node resp ↔
      encodedRelayMessageLen responder.proto
          ((Message.queryResponse resp).encodable responder.proto) node ≤
        responder.queryResponseSizeLimit := by
  refine and_iff_left_of_imp fun within => ?_
  rw [encodedRelayMessageLen, encodedMessageLen] at within
  have short : responder.proto.node.encodedLen node ≤ maxLen :=
    framed_small responder.proto.framing node (by omega)
  have small : ((Message.queryResponse resp).encodable responder.proto).encodedLen ≤ maxLen := by
    omega
  obtain ⟨raw, encoded, _⟩ := encodeRelayMessageToBytes_exact _ node laws.toFrameLaws laws.node
    (queryResponse_encodes laws.encoders resp trivial small) small short
  exact ⟨raw, encoded⟩

theorem sentTo_relayable (large : relayFactor.toNat < moment.states.entries.length)
    (relayable : Relayable responder node resp) :
    sentTo (relayResponse responder moment relayFactor node resp) =
      (randomMembers relayFactor.toNat moment.draws
        (relayCandidates responder.env.advertiseNode.id moment.states).toArray).toList := by
  have nobody : min relayFactor.toNat
      (relayCandidates responder.env.advertiseNode.id moment.states).length = 0 →
      (randomMembers relayFactor.toNat moment.draws
        (relayCandidates responder.env.advertiseNode.id moment.states).toArray).toList = [] := by
    intro none
    rw [← List.length_eq_zero_iff, length_randomMembers, List.size_toArray, none]
  obtain ⟨within, raw, encoded⟩ := relayable
  unfold relayResponse
  by_cases zero : relayFactor = 0
  · rw [if_pos zero, nobody (by rw [zero]; simp)]
    rfl
  · rw [if_neg zero, if_neg (by omega)]
    dsimp only
    by_cases empty : (relayCandidates responder.env.advertiseNode.id moment.states).isEmpty
    · rw [if_pos empty, nobody (by rw [List.isEmpty_iff.mp empty]; simp)]
      rfl
    · rw [if_neg empty, encoded, if_neg (by omega)]
      simp only [sentTo, List.map_map]
      exact List.map_id _

theorem sentTo_otherwise
    (stopped : ¬ (relayFactor.toNat < moment.states.entries.length ∧
      Relayable responder node resp)) :
    sentTo (relayResponse responder moment relayFactor node resp) = [] := by
  unfold relayResponse
  by_cases zero : relayFactor = 0
  · rw [if_pos zero]
    rfl
  · rw [if_neg zero]
    by_cases few : moment.states.entries.length < relayFactor.toNat + 1
    · rw [if_pos few]
      rfl
    · rw [if_neg few]
      dsimp only
      by_cases empty : (relayCandidates responder.env.advertiseNode.id moment.states).isEmpty
      · rw [if_pos empty]
        rfl
      · rw [if_neg empty]
        by_cases large : responder.queryResponseSizeLimit < encodedRelayMessageLen responder.proto
            ((Message.queryResponse resp).encodable responder.proto) node
        · rw [if_pos large]
          rfl
        · rw [if_neg large]
          cases encoded : encodeRelayMessageToBytes responder.proto
              ((Message.queryResponse resp).encodable responder.proto) node with
          | error reason => rfl
          | ok raw => exact absurd ⟨by omega, by omega, raw, encoded⟩ stopped

theorem randomMembers_entries (k : Nat) (localId : Id)
    (states : Table Id (MemberState Id Address)) (draws : Nat → UInt32) :
    ∃ chosen : List ((_ : Id) × MemberState Id Address),
      (randomMembers k draws (relayCandidates localId states).toArray).toList =
        chosen.map (fun entry => entry.2.member) ∧
      (chosen.map Sigma.fst).Nodup ∧
      (∀ entry ∈ chosen, entry ∈ states.entries ∧ Eligible localId entry) ∧
      chosen.length = min k (eligible localId states).length := by
  obtain ⟨shuffled, reordered, picked⟩ := randomMembers_picks k draws
    (relayCandidates localId states).toArray
  rw [List.toList_toArray, relayCandidates_eq] at reordered
  have back := congrFun (congrFun (List.eq_map_comp_perm fun entry => entry.2.member) shuffled)
    (eligible localId states)
  obtain ⟨entries, rfl, perm⟩ := back.mpr reordered
  have kept : (eligible localId states).Sublist states.entries := List.filter_sublist
  refine ⟨entries.take k, by rw [picked, List.map_take], ?_, ?_, ?_⟩
  · have distinct : ((eligible localId states).map Sigma.fst).Nodup :=
      List.Nodup.sublist (kept.map Sigma.fst) states.nodupKeys
    rw [List.map_take]
    exact ((perm.map Sigma.fst).nodup_iff.mpr distinct).sublist (List.take_sublist _ _)
  · intro entry inside
    have among := perm.mem_iff.mp (List.mem_of_mem_take inside)
    exact ⟨kept.subset among, of_decide_eq_true (List.mem_filter.mp among).2⟩
  · rw [List.length_take, perm.length_eq]

/-- A response is relayed through different members of the table that are alive and not
the local one: through as many as the relay factor says or all there are, if the table
is larger than the relay factor and the relay message is not too large, and through none
otherwise. The shuffle that picks them never panics. -/
theorem relays_distinct :
    (∃ chosen : List ((_ : Id) × MemberState Id Address),
      sentTo (relayResponse responder moment relayFactor node resp) =
        chosen.map (fun entry => entry.2.member) ∧
      (chosen.map Sigma.fst).Nodup ∧
      (∀ entry ∈ chosen, entry ∈ moment.states.entries ∧
        entry.2.member.status = .alive ∧ entry.1 ≠ responder.env.advertiseNode.id) ∧
      (relayFactor.toNat < moment.states.entries.length ∧ Relayable responder node resp →
        chosen.length =
          min relayFactor.toNat (eligible responder.env.advertiseNode.id moment.states).length) ∧
      (¬ (relayFactor.toNat < moment.states.entries.length ∧ Relayable responder node resp) →
        chosen = []) ∧
      (QueryLaws responder.proto → responder.queryResponseSizeLimit ≤ maxLen →
        chosen.length =
          if relayFactor.toNat < moment.states.entries.length ∧
              encodedRelayMessageLen responder.proto
                  ((Message.queryResponse resp).encodable responder.proto) node ≤
                responder.queryResponseSizeLimit then
            min relayFactor.toNat (eligible responder.env.advertiseNode.id moment.states).length
          else 0)) ∧
      ∀ (k : Nat) (members : Array (Member Id Address)),
        randomMembersChecked k moment.draws members =
          some (randomMembers k moment.draws members) := by
  refine ⟨?_, fun k members => randomMembersChecked_eq k moment.draws members⟩
  by_cases relayed : relayFactor.toNat < moment.states.entries.length ∧
      Relayable responder node resp
  · rw [sentTo_relayable responder moment relayFactor node resp relayed.1 relayed.2]
    obtain ⟨chosen, picked, distinct, members, length⟩ := randomMembers_entries relayFactor.toNat
      responder.env.advertiseNode.id moment.states moment.draws
    refine ⟨chosen, picked, distinct, members, fun _ => length, absurd relayed, ?_⟩
    intro laws limited
    rw [if_pos ⟨relayed.1, relayed.2.1⟩, length]
  · rw [sentTo_otherwise responder moment relayFactor node resp relayed]
    refine ⟨[], rfl, List.nodup_nil, fun _ none => absurd none List.not_mem_nil,
      fun held => absurd held relayed, fun _ => rfl, ?_⟩
    intro laws limited
    rw [relayable_iff responder node resp laws limited] at relayed
    rw [if_neg relayed, List.length_nil]

def crowdedMoment (draws : Nat → UInt32) : Moment UInt8 UInt8 :=
  { quietMoment with
    states := (quietMoment.states.insert 4 (aliveMember 4 40)).insert 5 (aliveMember 5 50), draws }

theorem relays_distinct_two :
    ∃ chosen : List ((_ : UInt8) × MemberState UInt8 UInt8),
      sentTo (relayResponse second (crowdedMoment fun _ => 7) 2 (clusterNode 2 20)
        ⟨1, 7, clusterNode 2 20, 0, [9]⟩) = chosen.map (fun entry => entry.2.member) ∧
      (chosen.map Sigma.fst).Nodup ∧ chosen.length = 2 := by
  obtain ⟨⟨chosen, sent, distinct, _, _, _, length⟩, _⟩ := relays_distinct second
    (crowdedMoment fun _ => 7) 2 (clusterNode 2 20) ⟨1, 7, clusterNode 2 20, 0, [9]⟩
  exact ⟨chosen, sent, distinct,
    (length reference_laws.toQueryLaws (by decide)).trans (by decide +kernel)⟩

end Peers

end Serf.RelayPeers
