import Serf.Library.Collections

/-!
A bounded channel, kept as everything that was ever sent on it, and an inbox that
takes at most one item of each sender over such a channel. The senders it has taken
are exactly those on the channel, and it only turns an item away when as many
other senders are there as the channel has room for, whether or not they were read.
-/

namespace Serf.Library.Delivery

open Collections

/-- `sent` is the whole history, oldest first; the first `taken` items have been
received. -/
structure Channel (Item : Type) where
  capacity : Nat
  sent : List Item
  taken : Nat
  closed : Bool
  deriving DecidableEq

inductive Attempt where
  | sent
  | full
  | closed

namespace Channel

variable {Item : Type}

def bounded (capacity : Nat) : Channel Item := ⟨capacity, [], 0, false⟩

def queued (channel : Channel Item) : Nat := channel.sent.length - channel.taken

def trySend (channel : Channel Item) (item : Item) : Channel Item × Attempt :=
  if channel.closed then (channel, .closed)
  else if channel.capacity ≤ channel.queued then (channel, .full)
  else ({ channel with sent := channel.sent ++ [item] }, .sent)

def close (channel : Channel Item) : Channel Item := { channel with closed := true }

def take (channel : Channel Item) : Channel Item :=
  if channel.taken < channel.sent.length then { channel with taken := channel.taken + 1 }
  else channel

end Channel

structure Inbox (Sender Item : Type) where
  seen : ItemSet Sender
  channel : Option (Channel Item)
  deriving DecidableEq

namespace Inbox

variable {Sender Item : Type}

def sent (inbox : Inbox Sender Item) : List Item :=
  match inbox.channel with
  | none => []
  | some channel => channel.sent

def ofCapacity (capacity : Nat) : Inbox Sender Item := ⟨.empty, some (.bounded capacity)⟩

def absent : Inbox Sender Item := ⟨.empty, none⟩

def close (inbox : Inbox Sender Item) : Inbox Sender Item :=
  { inbox with channel := inbox.channel.map Channel.close }

def take (inbox : Inbox Sender Item) : Inbox Sender Item :=
  { inbox with channel := inbox.channel.map Channel.take }

/-- Send the item unless its sender was taken or the inbox is closed. The sender is
recorded unless the channel is full; `false` is a failed delivery. -/
def offer [DecidableEq Sender] (closed : Bool) (sender : Sender) (item : Item)
    (inbox : Inbox Sender Item) : Inbox Sender Item × Bool :=
  if sender ∈ inbox.seen.items then (inbox, true)
  else if closed then (inbox, true)
  else
    match inbox.channel with
    | none => (inbox, true)
    | some channel =>
      match channel.trySend item with
      | (_, .full) => (inbox, false)
      | (channel, _) => (⟨inbox.seen.insert sender, some channel⟩, true)

def Roomy (inbox : Inbox Sender Item) : Prop :=
  ∃ channel, inbox.channel = some channel ∧ channel.queued < channel.capacity

/-- The state of an inbox whose items come from a source. -/
structure Sound (sender : Item → Sender) (source : Item → Prop) (capacity : Nat) (closed : Bool)
    (inbox : Inbox Sender Item) : Prop where
  once : (inbox.sent.map sender).Nodup
  seen : ∀ node, node ∈ inbox.seen ↔ node ∈ inbox.sent.map sender
  source : ∀ item ∈ inbox.sent, source item
  channel : ∀ channel, inbox.channel = some channel →
    channel.capacity = capacity ∧ channel.closed = closed

@[simp] theorem sent_close (inbox : Inbox Sender Item) : inbox.close.sent = inbox.sent := by
  obtain ⟨seen, channel⟩ := inbox
  cases channel <;> rfl

@[simp] theorem sent_take (inbox : Inbox Sender Item) : inbox.take.sent = inbox.sent := by
  obtain ⟨seen, channel⟩ := inbox
  cases channel with
  | none => rfl
  | some channel =>
    simp only [take, sent, Option.map_some, Channel.take]
    split <;> rfl

section Operations

variable (sender : Item → Sender) (source : Item → Prop) (capacity : Nat)

theorem ofCapacity_sound : Sound sender source capacity false (ofCapacity capacity) where
  once := List.nodup_nil
  seen node := Iff.rfl
  source item member := by cases member
  channel channel is := by
    cases is
    exact ⟨rfl, rfl⟩

theorem absent_sound : Sound sender source capacity false absent where
  once := List.nodup_nil
  seen node := Iff.rfl
  source item member := by cases member
  channel channel is := by cases is

variable (closed : Bool) (inbox : Inbox Sender Item)
  (sound : Sound sender source capacity closed inbox)

include sound

theorem close_sound : Sound sender source capacity true inbox.close where
  once := by simpa using sound.once
  seen node := by
    rw [sent_close]
    exact sound.seen node
  source item member := sound.source item (by simpa using member)
  channel channel is := by
    obtain ⟨before, there, rfl⟩ := Option.map_eq_some_iff.mp is
    exact ⟨(sound.channel before there).1, rfl⟩

theorem take_sound : Sound sender source capacity closed inbox.take where
  once := by simpa using sound.once
  seen node := by
    rw [sent_take]
    exact sound.seen node
  source item member := sound.source item (by simpa using member)
  channel channel is := by
    obtain ⟨before, there, rfl⟩ := Option.map_eq_some_iff.mp is
    have held := sound.channel before there
    unfold Channel.take
    split <;> exact held

variable [DecidableEq Sender] (item : Item)

omit sound in
theorem offer_closed : (inbox.offer true (sender item) item).1 = inbox := by
  unfold offer
  split <;> rfl

/-- What an offer can do: nothing, deliver the item of a new sender, or fail on a
full channel. -/
theorem offer_cases :
    inbox.offer closed (sender item) item = (inbox, true) ∨
    (∃ channel, inbox.channel = some channel ∧ sender item ∉ inbox.seen ∧
      inbox.offer closed (sender item) item = (⟨inbox.seen.insert (sender item),
        some { channel with sent := channel.sent ++ [item] }⟩, true)) ∨
    (∃ channel, inbox.channel = some channel ∧ sender item ∉ inbox.seen ∧
      channel.capacity ≤ channel.sent.length ∧
      inbox.offer closed (sender item) item = (inbox, false)) := by
  unfold offer
  by_cases known : sender item ∈ inbox.seen.items
  · exact Or.inl (if_pos known)
  · rw [if_neg known]
    cases closed with
    | true => exact Or.inl rfl
    | false =>
      cases there : inbox.channel with
      | none => exact Or.inl rfl
      | some channel =>
        -- An open inbox has an open channel.
        have isOpen := (sound.channel channel there).2
        simp only [Bool.false_eq_true, if_false, Channel.trySend, isOpen]
        by_cases full : channel.capacity ≤ channel.queued
        · refine Or.inr (Or.inr ⟨channel, rfl, known, ?_, by rw [if_pos full]⟩)
          exact le_trans full (Nat.sub_le _ _)
        · exact Or.inr (Or.inl ⟨channel, rfl, known, by rw [if_neg full, isOpen]⟩)

theorem offer_sound (comes : source item) :
    Sound sender source capacity closed (inbox.offer closed (sender item) item).1 := by
  rcases offer_cases sender source capacity closed inbox sound item with
    same | ⟨channel, there, new, done⟩ | ⟨channel, _, _, _, failed⟩
  · rw [same]
    exact sound
  · have before : inbox.sent = channel.sent := by rw [sent, there]
    have once := sound.once
    have seen := sound.seen
    have origin := sound.source
    rw [before] at once origin
    simp only [before] at seen
    rw [done]
    constructor
    · simp only [sent, List.map_append, List.map_cons, List.map_nil]
      rw [List.nodup_append_comm]
      exact List.nodup_cons.mpr ⟨fun old => new ((seen _).mpr old), once⟩
    · intro node
      rw [ItemSet.mem_insert, seen]
      simp [sent, or_comm]
    · intro other member
      rcases List.mem_append.mp member with old | last
      · exact origin other old
      · rw [List.mem_singleton.mp last]
        exact comes
    · intro after is
      cases is
      exact sound.channel channel there
  · rw [failed]
    exact sound

theorem offer_roomy (isOpen : closed = false) (room : inbox.Roomy)
    (new : sender item ∉ inbox.seen) :
    item ∈ (inbox.offer closed (sender item) item).1.sent := by
  obtain ⟨channel, there, free⟩ := room
  have live : channel.closed = false := (sound.channel channel there).2.trans isOpen
  have fails : ¬ channel.capacity ≤ channel.queued := Nat.not_le.mpr free
  change sender item ∉ inbox.seen.items at new
  rw [offer, if_neg new, isOpen]
  simp [there, Channel.trySend, live, fails, sent]

theorem offer_fails (comes : source item) (cover : List Sender)
    (covers : ∀ item, source item → sender item ∈ cover)
    (failed : (inbox.offer closed (sender item) item).2 = false) : capacity < cover.length := by
  rcases offer_cases sender source capacity closed inbox sound item with
    same | ⟨channel, there, new, done⟩ | ⟨channel, there, new, full, _⟩
  · rw [same] at failed
    cases failed
  · rw [done] at failed
    cases failed
  · have before : inbox.sent = channel.sent := by rw [sent, there]
    rw [(sound.channel channel there).1, ← before] at full
    rw [sound.seen] at new
    -- The senders on the channel and the one turned away are all different.
    have distinct : (sender item :: inbox.sent.map sender).Nodup :=
      List.nodup_cons.mpr ⟨new, sound.once⟩
    have inside : sender item :: inbox.sent.map sender ⊆ cover := by
      intro node member
      rcases List.mem_cons.mp member with rfl | old
      · exact covers item comes
      · obtain ⟨other, there, rfl⟩ := List.mem_map.mp old
        exact covers other (sound.source other there)
    have fits := (List.subperm_of_subset distinct inside).length_le
    rw [List.length_cons, List.length_map] at fits
    omega

end Operations

end Inbox

end Serf.Library.Delivery
