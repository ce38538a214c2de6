import Serf.Coalesce

/-!
The user event coalescer against all that it was given since its last flush. For every
name it holds the largest time seen and the events of that time in their order of
arrival: a newer event starts the list anew, one of the same time is put behind, an
older one is dropped. A flush sends all lists and keeps nothing.
-/

namespace Serf.UserCoalescer

open QueryHandler Coalesce

variable {Id Address : Type}

abbrev UserEventCoalescer := List (String × LatestUserEvents)

def held (name : String) : UserEventCoalescer → Option LatestUserEvents
  | [] => none
  | (key, latest) :: rest => if key = name then some latest else held name rest

def extended (latest : Option LatestUserEvents) (event : UserEventMessage) : LatestUserEvents :=
  match latest with
  | none => ⟨event.ltime, [event]⟩
  | some latest => latest.add event

theorem held_addUserEvent (event : UserEventMessage) (state : UserEventCoalescer) (name : String) :
    held name (addUserEvent event state) =
      if event.name = name then some (extended (held name state) event) else held name state := by
  induction state with
  | nil => rfl
  | cons entry rest ih =>
    obtain ⟨key, latest⟩ := entry
    by_cases here : key = event.name
    · subst key
      by_cases same : event.name = name
      · simp [addUserEvent, held, extended, same]
      · simp [addUserEvent, held, same]
    · rw [addUserEvent, if_neg here, held, ih, held]
      by_cases same : key = name
      · subst key
        simp [Ne.symm here]
      · simp [same]

theorem names_known (event : UserEventMessage) (state : UserEventCoalescer)
    (known : event.name ∈ state.map Prod.fst) :
    (addUserEvent event state).map Prod.fst = state.map Prod.fst := by
  induction state with
  | nil => cases known
  | cons entry rest ih =>
    obtain ⟨key, latest⟩ := entry
    by_cases here : key = event.name
    · rw [addUserEvent, if_pos here]
      rfl
    · rw [List.map_cons, List.mem_cons, or_iff_right (Ne.symm here)] at known
      rw [addUserEvent, if_neg here, List.map_cons, ih known, List.map_cons]

theorem names_new (event : UserEventMessage) (state : UserEventCoalescer)
    (unknown : event.name ∉ state.map Prod.fst) :
    (addUserEvent event state).map Prod.fst = state.map Prod.fst ++ [event.name] := by
  induction state with
  | nil => rfl
  | cons entry rest ih =>
    obtain ⟨key, latest⟩ := entry
    rw [List.map_cons, List.mem_cons, not_or] at unknown
    rw [addUserEvent, if_neg (Ne.symm unknown.1), List.map_cons, ih unknown.2]
    rfl

/-- One entry per name, which holds events of that name. -/
structure Sound (state : UserEventCoalescer) : Prop where
  distinct : (state.map Prod.fst).Nodup
  named : ∀ entry ∈ state, ∀ event ∈ entry.2.events, event.name = entry.1

theorem add_events (latest : LatestUserEvents) (event other : UserEventMessage)
    (member : other ∈ (latest.add event).events) : other = event ∨ other ∈ latest.events := by
  unfold LatestUserEvents.add at member
  split at member
  · exact Or.inl (List.mem_singleton.mp member)
  · split at member
    · rcases List.mem_append.mp member with earlier | now
      · exact Or.inr earlier
      · exact Or.inl (List.mem_singleton.mp now)
    · exact Or.inr member

theorem addUserEvent_named (event : UserEventMessage) (state : UserEventCoalescer)
    (named : ∀ entry ∈ state, ∀ event ∈ entry.2.events, event.name = entry.1) :
    ∀ entry ∈ addUserEvent event state, ∀ event ∈ entry.2.events, event.name = entry.1 := by
  induction state with
  | nil =>
    intro entry member other inside
    rw [List.mem_singleton.mp member] at inside ⊢
    rw [List.mem_singleton.mp inside]
  | cons first rest ih =>
    obtain ⟨key, latest⟩ := first
    obtain ⟨head, tail⟩ := List.forall_mem_cons.mp named
    by_cases here : key = event.name
    · rw [addUserEvent, if_pos here]
      refine List.forall_mem_cons.mpr ⟨fun other inside => ?_, tail⟩
      rcases add_events latest event other inside with rfl | earlier
      · exact here.symm
      · exact head other earlier
    · rw [addUserEvent, if_neg here]
      exact List.forall_mem_cons.mpr ⟨head, ih tail⟩

theorem addUserEvent_sound (event : UserEventMessage) (state : UserEventCoalescer)
    (sound : Sound state) : Sound (addUserEvent event state) := by
  refine ⟨?_, addUserEvent_named event state sound.named⟩
  by_cases known : event.name ∈ state.map Prod.fst
  · rw [names_known event state known]
    exact sound.distinct
  · rw [names_new event state known]
    exact List.nodup_append.mpr ⟨sound.distinct, List.nodup_singleton _, by
      intro name member other same equal
      exact known (List.mem_singleton.mp same ▸ equal ▸ member)⟩

variable (state : UserEventCoalescer) (name : String)

theorem held_none (unknown : name ∉ state.map Prod.fst) : held name state = none := by
  induction state with
  | nil => rfl
  | cons entry rest ih =>
    rw [List.map_cons, List.mem_cons, not_or] at unknown
    rw [held, if_neg (Ne.symm unknown.1), ih unknown.2]

theorem sent_of_name (sound : Sound state) (name : String) :
    (state.flatMap fun entry => entry.2.events).filter (fun event => event.name = name) =
      ((held name state).map LatestUserEvents.events).getD [] := by
  obtain ⟨distinct, named⟩ := sound
  induction state with
  | nil => rfl
  | cons entry rest ih =>
    obtain ⟨key, latest⟩ := entry
    rw [List.map_cons, List.nodup_cons] at distinct
    obtain ⟨head, tail⟩ := List.forall_mem_cons.mp named
    rw [List.flatMap_cons, List.filter_append, ih distinct.2 tail, held]
    by_cases here : key = name
    · -- Names are distinct, so no later entry adds to those of this name.
      subst key
      have all : latest.events.filter (fun event => event.name = name) = latest.events := by
        rw [List.filter_eq_self]
        intro event member
        simpa using head event member
      rw [all, held_none rest name distinct.1, if_pos rfl]
      exact List.append_nil _
    · have none : latest.events.filter (fun event => event.name = name) = [] := by
        rw [List.filter_eq_nil_iff]
        intro event member same
        exact here ((head event member).symm.trans (by simpa using same))
      rw [none, if_neg here, List.nil_append]

/-- The entry of a name after these events: their largest time, and the events of that
time in their order. -/
def Summarizes (name : String) (events : List UserEventMessage) :
    Option LatestUserEvents → Prop
  | none => ∀ event ∈ events, event.name ≠ name
  | some latest =>
    (∃ event ∈ events, event.name = name ∧ event.ltime = latest.ltime) ∧
    (∀ event ∈ events, event.name = name → event.ltime ≤ latest.ltime) ∧
    latest.events = events.filter fun event => event.name = name ∧ event.ltime = latest.ltime

variable (events : List UserEventMessage)

theorem first_summarizes (event : UserEventMessage) (same : event.name = name)
    (older : ∀ earlier ∈ events, earlier.name = name → earlier.ltime < event.ltime) :
    Summarizes name (events ++ [event]) (some ⟨event.ltime, [event]⟩) := by
  refine ⟨⟨event, by simp, same, rfl⟩, ?_, ?_⟩
  · intro earlier member named
    rcases List.mem_append.mp member with before | now
    · exact le_of_lt (older earlier before named)
    · rw [List.mem_singleton.mp now]
  · have none : (events.filter fun earlier => earlier.name = name ∧ earlier.ltime = event.ltime) =
        [] := by
      rw [List.filter_eq_nil_iff]
      intro earlier member both
      simp only [decide_eq_true_eq] at both
      exact absurd both.2 (ne_of_lt (older earlier member both.1))
    rw [List.filter_append, none]
    simp [same]

theorem extended_summarizes (latest : Option LatestUserEvents) (event : UserEventMessage)
    (same : event.name = name) (before : Summarizes name events latest) :
    Summarizes name (events ++ [event]) (some (extended latest event)) := by
  cases latest with
  | none =>
    refine first_summarizes name events event same ?_
    intro earlier member named
    exact absurd named (before earlier member)
  | some latest =>
    obtain ⟨⟨top, inside, named, attained⟩, bound, listed⟩ := before
    by_cases newer : latest.ltime < event.ltime
    · rw [extended, LatestUserEvents.add, if_pos newer]
      refine first_summarizes name events event same ?_
      intro earlier member there
      exact lt_of_le_of_lt (bound earlier member there) newer
    -- An event of the same time is put behind the others, an older one is dropped.
    · by_cases equal : latest.ltime = event.ltime
      · rw [extended, LatestUserEvents.add, if_neg newer, if_pos equal]
        refine ⟨⟨top, List.mem_append_left _ inside, named, attained⟩, ?_, ?_⟩
        · simp only [List.forall_mem_append, List.forall_mem_singleton]
          exact ⟨bound, fun _ => le_of_eq equal.symm⟩
        · simp [List.filter_append, listed, same, equal]
      · rw [extended, LatestUserEvents.add, if_neg newer, if_neg equal]
        refine ⟨⟨top, List.mem_append_left _ inside, named, attained⟩, ?_, ?_⟩
        · simp only [List.forall_mem_append, List.forall_mem_singleton]
          exact ⟨bound, fun _ => le_of_not_gt newer⟩
        · simp [List.filter_append, listed, Ne.symm equal]

theorem other_summarizes (latest : Option LatestUserEvents) (event : UserEventMessage)
    (other : event.name ≠ name) (before : Summarizes name events latest) :
    Summarizes name (events ++ [event]) latest := by
  cases latest with
  | none => exact List.forall_mem_append.mpr ⟨before, List.forall_mem_singleton.mpr other⟩
  | some latest =>
    obtain ⟨⟨top, inside, named, attained⟩, bound, listed⟩ := before
    refine ⟨⟨top, List.mem_append_left _ inside, named, attained⟩, ?_, ?_⟩
    · simp only [List.forall_mem_append, List.forall_mem_singleton]
      exact ⟨bound, fun same => absurd same other⟩
    · simp [List.filter_append, listed, other]

def collected (events : List UserEventMessage) : UserEventCoalescer :=
  events.foldl (fun state event => addUserEvent event state) []

theorem collected_summarizes :
    Sound (collected events) ∧ ∀ name, Summarizes name events (held name (collected events)) := by
  -- From the back, since the coalescer sees the last event last.
  induction events using List.reverseRecOn with
  | nil =>
    refine ⟨⟨List.nodup_nil, by simp [collected]⟩, fun name => ?_⟩
    simp [collected, held, Summarizes]
  | append_singleton events event ih =>
    obtain ⟨sound, summary⟩ := ih
    have step : collected (events ++ [event]) = addUserEvent event (collected events) := by
      simp [collected]
    rw [step]
    refine ⟨addUserEvent_sound event _ sound, fun name => ?_⟩
    rw [held_addUserEvent]
    split
    · rename_i same
      exact extended_summarizes name events _ event same (summary name)
    · rename_i other
      exact other_summarizes name events _ event other (summary name)

/-- The events of the name that no other is newer than. -/
def newest (events : List UserEventMessage) (name : String) : List UserEventMessage :=
  events.filter fun event =>
    event.name = name ∧ ∀ other ∈ events, other.name = name → other.ltime ≤ event.ltime

theorem summarized_newest (name : String) (latest : Option LatestUserEvents)
    (summary : Summarizes name events latest) :
    (latest.map LatestUserEvents.events).getD [] = newest events name := by
  cases latest with
  | none =>
    symm
    refine List.filter_eq_nil_iff.mpr fun event member both => ?_
    exact summary event member (of_decide_eq_true both).1
  | some latest =>
    obtain ⟨⟨top, inside, named, attained⟩, bound, listed⟩ := summary
    rw [Option.map_some, Option.getD_some, listed]
    refine List.filter_congr fun event member => decide_eq_decide.mpr ?_
    refine and_congr_right fun same => ⟨fun equal => ?_, fun largest => ?_⟩
    · rw [equal]
      exact bound
    · exact le_antisymm (bound event member same) (attained ▸ largest top inside named)

/-- Of everything coalesced since the flush before, a flush sends for each name exactly
the events of its largest time, in their order of arrival and as often as they came, and
leaves nothing for a second flush. -/
theorem user_flush_sends_newest (earlier : UserEventCoalescer) (events : List UserEventMessage) :
    let coalescer : Coalescer (CrateEvent Id Address) UserEventCoalescer := userEventCoalescer
    let state := (events.map .user).foldl coalescer.coalesce (coalescer.flush earlier).1
    ∃ sent : List UserEventMessage, (coalescer.flush state).2 = sent.map .user ∧
      (∀ name, sent.filter (fun event => event.name = name) = newest events name) ∧
      (coalescer.flush state).1 = coalescer.new ∧
      (coalescer.flush (coalescer.flush state).1).2 = [] := by
  intro coalescer state
  have reached : state = collected events := by
    simp [state, coalescer, userEventCoalescer, collected, List.foldl_map]
  obtain ⟨sound, summary⟩ := collected_summarizes events
  refine ⟨(collected events).flatMap fun entry => entry.2.events, ?_, ?_, rfl, rfl⟩
  · rw [reached]
    simp [coalescer, userEventCoalescer, List.map_flatMap]
  · intro name
    rw [sent_of_name _ sound, summarized_newest events name _ (summary name)]

end Serf.UserCoalescer
