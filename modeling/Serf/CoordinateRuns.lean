import Serf.Coordinates

/-!
Whole runs of a coordinate client. What an accepted update does is said once, in
`update_moves`; everything about runs follows from it and from the fact that the other
calls change little.
-/

namespace Serf.Coordinates

open Library.Collections Library.FloatingPoint Library.Machine Library.Recent

variable {Id Number : Type} [Floating Number]

section Forces

theorem addInPlace_length (vec1 vec2 : List Number) :
    (addInPlace vec1 vec2).length = vec1.length := by
  induction vec1 generalizing vec2 with
  | nil => rfl
  | cons x rest ih =>
    cases vec2 with
    | nil => rfl
    | cons y others => simp [addInPlace, ih]

theorem unitVectorAt_defined (draws : Nat → Number) (vec1 vec2 : List Number)
    (same : vec1.length = vec2.length) (positive : 0 < vec1.length) :
    ∃ unit mag, unitVectorAt draws vec1 vec2 = some (unit, mag) ∧
      unit.length = vec1.length := by
  have length : (diff vec1 vec2).length = vec1.length := by simp [diff, same]
  unfold unitVectorAt
  simp only
  split
  · exact ⟨_, _, rfl, by simp [mulInPlace, length]⟩
  split
  · exact ⟨_, _, rfl, by simp [mulInPlace, length]⟩
  -- Only an empty vector has no first axis.
  split
  · rename_i empty
    have none := congrArg List.length empty
    simp only [List.length_map, List.length_mapIdx, length, List.length_nil] at none
    omega
  · rename_i first rest axes
    have all := congrArg List.length axes
    simp only [List.length_map, List.length_mapIdx, length, List.length_cons] at all
    exact ⟨_, _, rfl, by simp [all]⟩

theorem unitVectorAt_nil (laws : FloatingLaws Number) (draws : Nat → Number) :
    unitVectorAt draws [] [] = none := by
  have none : Floating.less zeroThreshold (magnitudeInPlace ([] : List Number)) = false :=
    laws.sqrt_zero
  simp [unitVectorAt, diff, none]

structure Pushed (this after : Coordinate Number) : Prop where
  dimension : after.portion.length = this.portion.length
  adjustment : after.adjustment = this.adjustment

theorem applyForce_pushes (draws : Nat → Number) (this other : Coordinate Number)
    (heightMin force : Number) (same : this.portion.length = other.portion.length)
    (positive : 0 < this.portion.length) :
    ∃ after, this.applyForce draws heightMin force other = some after ∧
      Pushed this after := by
  obtain ⟨unit, mag, made, length⟩ := unitVectorAt_defined draws this.portion other.portion same
    positive
  have compatible : this.isCompatibleWith other := by simpa [Coordinate.isCompatibleWith] using same
  rw [Coordinate.applyForce, if_pos compatible, made, Option.map_some]
  refine ⟨_, rfl, ?_⟩
  simp only
  split
  · exact ⟨addInPlace_length _ _, rfl⟩
  · exact ⟨addInPlace_length _ _, rfl⟩

theorem distanceTo_defined (this other : Coordinate Number)
    (same : this.portion.length = other.portion.length) :
    ∃ dist, this.distanceTo other = some dist := by
  have compatible : this.isCompatibleWith other := by simpa [Coordinate.isCompatibleWith] using same
  rw [Coordinate.distanceTo, if_pos compatible]
  exact ⟨_, rfl⟩

end Forces

namespace CoordinateClient

/-- The test that `update` makes before anything else. -/
def accepts (client : CoordinateClient Id Number) (other : Coordinate Number) (rtt : Duration) :
    Bool :=
  client.coord.isCompatibleWith other && other.isValid && decide (rtt ≤ maxRtt)

/-- The difference that an update puts into the window. -/
def sample [DecidableEq Id] (draws : Draws Number) (node : Id) (other : Coordinate Number)
    (rtt : Duration) (client : CoordinateClient Id Number) : Option Number := do
  let (client, rttSeconds) ← client.latencyFilter node (asSecs rtt)
  let client ← client.updateVivaldi draws.vivaldi other rttSeconds
  return rttSeconds - client.coord.rawDistanceTo other

/-- Options with which a client works. -/
structure Workable (opts : CoordinateOptions Number) : Prop where
  fresh : (Coordinate.withOptions opts).isValid
  dimensions : 0 < opts.dimensionality
  positive : 0 < opts.latencyFilterSize

structure Steady (opts : CoordinateOptions Number) (client : CoordinateClient Id Number) :
    Prop where
  settings : client.opts = opts
  origin : client.origin = .withOptions opts
  dimension : client.coord.portion.length = opts.dimensionality
  window : client.adjustmentSamples.length = opts.adjustmentWindowSize
  index : opts.adjustmentWindowSize ≠ 0 → client.adjustmentIndex < opts.adjustmentWindowSize

theorem steady_withOptions (opts : CoordinateOptions Number) :
    Steady opts (withOptions opts : CoordinateClient Id Number) where
  settings := rfl
  origin := rfl
  dimension := by simp [withOptions, Coordinate.withOptions]
  window := by simp [withOptions]
  index := Nat.pos_of_ne_zero

structure Moved (client after : CoordinateClient Id Number) (sample : Number) : Prop where
  opts : after.opts = client.opts
  origin : after.origin = client.origin
  resets : after.resets = client.resets
  dimension : after.coord.portion.length = client.coord.portion.length
  disabled : client.opts.adjustmentWindowSize = 0 →
    after.adjustmentSamples = client.adjustmentSamples
  samples : client.opts.adjustmentWindowSize ≠ 0 →
    after.adjustmentSamples = client.adjustmentSamples.set client.adjustmentIndex sample ∧
      after.adjustmentIndex =
        (client.adjustmentIndex + 1) % client.opts.adjustmentWindowSize ∧
      after.coord.adjustment =
        sum after.adjustmentSamples / (2.0 * (client.opts.adjustmentWindowSize : Number))

section Stages

variable {opts : CoordinateOptions Number} {client : CoordinateClient Id Number}

variable (client) in
theorem latencyFilter_defined [DecidableEq Id] (node : Id) (rttSeconds : Number)
    (positive : 0 < client.opts.latencyFilterSize) :
    ∃ middle, client.latencyFilter node rttSeconds =
      some ({ client with
        latencyFilterSamples := client.latencyFilterSamples.insert node
          (push client.opts.latencyFilterSize ((client.latencyFilterSamples.lookup node).getD [])
            rttSeconds) }, middle) := by
  have kept := push_ne_nil client.opts.latencyFilterSize
    ((client.latencyFilterSamples.lookup node).getD []) rttSeconds positive
  obtain ⟨middle, found⟩ := median_defined ascends _ kept
  exact ⟨middle, by rw [latencyFilter, found]; rfl⟩

theorem updateVivaldi_moves (steady : Steady opts client) (positive : 0 < opts.dimensionality)
    (draws : Nat → Number) (other : Coordinate Number) (rttSeconds : Number)
    (same : other.portion.length = opts.dimensionality) :
    ∃ coord, client.updateVivaldi draws other rttSeconds = some { client with coord } ∧
      Pushed client.coord coord := by
  have fits : client.coord.portion.length = other.portion.length := by rw [steady.dimension, same]
  obtain ⟨dist, measured⟩ := distanceTo_defined client.coord other fits
  obtain ⟨coord, pushed, kept⟩ := applyForce_pushes draws
    { client.coord with
      error := client.vivaldiError other (asSecs dist) (max rttSeconds zeroThreshold) } other
    client.opts.heightMin
    (client.vivaldiForce other (asSecs dist) (max rttSeconds zeroThreshold)) fits
    (by rw [steady.dimension]; exact positive)
  refine ⟨coord, ?_, kept.dimension, kept.adjustment⟩
  simp [updateVivaldi, measured, pushed]

theorem updateAdjustment_moves (steady : Steady opts client) (other : Coordinate Number)
    (rttSeconds : Number) :
    ∃ after, client.updateAdjustment other rttSeconds = some after ∧
      after.opts = client.opts ∧ after.origin = client.origin ∧ after.resets = client.resets ∧
      after.coord.portion = client.coord.portion ∧
      (opts.adjustmentWindowSize = 0 → after = client) ∧
      (opts.adjustmentWindowSize ≠ 0 →
        after.adjustmentSamples = client.adjustmentSamples.set client.adjustmentIndex
            (rttSeconds - client.coord.rawDistanceTo other) ∧
          after.adjustmentIndex = (client.adjustmentIndex + 1) % opts.adjustmentWindowSize ∧
          after.coord.adjustment =
            sum after.adjustmentSamples / (2.0 * (opts.adjustmentWindowSize : Number))) := by
  rw [updateAdjustment, steady.settings]
  by_cases disabled : opts.adjustmentWindowSize = 0
  · rw [if_pos disabled]
    exact ⟨client, rfl, steady.settings ▸ rfl, rfl, rfl, rfl, fun _ => rfl,
      fun enabled => absurd disabled enabled⟩
  · have inside : client.adjustmentIndex < client.adjustmentSamples.length := by
      rw [steady.window]
      exact steady.index disabled
    rw [if_neg disabled, if_pos inside]
    exact ⟨_, rfl, steady.settings ▸ rfl, rfl, rfl, rfl,
      fun none => absurd none disabled, fun _ => ⟨rfl, rfl, rfl⟩⟩

theorem updateGravity_moves (steady : Steady opts client) (positive : 0 < opts.dimensionality)
    (draws : Nat → Number) :
    ∃ coord, client.updateGravity draws = some { client with coord } ∧
      Pushed client.coord coord := by
  have fits : client.coord.portion.length = client.origin.portion.length := by
    rw [steady.dimension, steady.origin]
    simp [Coordinate.withOptions]
  obtain ⟨dist, measured⟩ := distanceTo_defined client.origin client.coord fits.symm
  obtain ⟨coord, pushed, kept⟩ := applyForce_pushes draws client.coord client.origin
    client.opts.heightMin (client.gravityForce dist) fits (by rw [steady.dimension]; exact positive)
  refine ⟨coord, ?_, kept⟩
  simp [updateGravity, measured, pushed]

variable [DecidableEq Id]

theorem update_rejected (draws : Draws Number) (node : Id) (other : Coordinate Number)
    (rtt : Duration) (rejected : client.accepts other rtt = false) :
    ∃ reason, client.update draws node other rtt = some (client, .error reason) := by
  rw [update, checkCoordinate]
  by_cases compatible : client.coord.isCompatibleWith other
  · by_cases valid : other.isValid
    · have late : maxRtt < rtt := by simpa [accepts, compatible, valid] using rejected
      simp [compatible, valid, late]
    · simp [compatible, valid]
  · simp [compatible]

theorem update_moves (work : Workable opts) (steady : Steady opts client) (draws : Draws Number)
    (node : Id) (other : Coordinate Number) (rtt : Duration) (accepted : client.accepts other rtt) :
    ∃ after sample, client.sample draws node other rtt = some sample ∧
      client.update draws node other rtt = some (after.settle, .ok after.settle.coord) ∧
      Moved client after sample := by
  simp only [accepts, Bool.and_eq_true, decide_eq_true_eq] at accepted
  obtain ⟨⟨compatible, valid⟩, early⟩ := accepted
  have same : other.portion.length = opts.dimensionality := by
    rw [← steady.dimension, eq_comm]
    simpa [Coordinate.isCompatibleWith] using compatible
  obtain ⟨middle, filtered⟩ := latencyFilter_defined client node (asSecs rtt)
    (by rw [steady.settings]; exact work.positive)
  generalize first : ({ client with latencyFilterSamples := _ } : CoordinateClient Id Number) =
    heard at filtered
  have steadyFirst : Steady opts heard := by
    subst heard
    exact ⟨steady.settings, steady.origin, steady.dimension, steady.window, steady.index⟩
  obtain ⟨near, pulled, vivaldi⟩ := updateVivaldi_moves steadyFirst work.dimensions
    draws.vivaldi other middle same
  have steadySecond : Steady opts { heard with coord := near } :=
    ⟨steadyFirst.settings, steadyFirst.origin, vivaldi.dimension.trans steadyFirst.dimension,
      steadyFirst.window, steadyFirst.index⟩
  obtain ⟨shifted, adjusted, settings, origin, resets, portion, disabled, enabled⟩ :=
    updateAdjustment_moves steadySecond other middle
  have steadyThird : Steady opts shifted := by
    refine ⟨settings.trans steadySecond.settings, origin.trans steadySecond.origin,
      (congrArg List.length portion).trans steadySecond.dimension, ?_, ?_⟩
    · by_cases none : opts.adjustmentWindowSize = 0
      · rw [disabled none]
        exact steadySecond.window
      · rw [(enabled none).1, List.length_set]
        exact steadySecond.window
    · intro some
      rw [(enabled some).2.1]
      exact Nat.mod_lt _ (Nat.pos_of_ne_zero some)
  obtain ⟨final, fallen, gravity⟩ := updateGravity_moves steadyThird work.dimensions draws.gravity
  refine ⟨{ shifted with coord := final }, middle - near.rawDistanceTo other, ?_, ?_, ?_⟩
  · simp [sample, filtered, pulled]
  · have check : checkCoordinate client.coord other = .ok () := by
      simp [checkCoordinate, compatible, valid]
    simp [update, check, Nat.not_lt.mpr early, filtered, pulled, adjusted, fallen]
  · subst heard
    rw [← steady.settings] at disabled enabled
    constructor
    · exact settings
    · exact origin
    · exact resets
    · exact gravity.dimension.trans ((congrArg List.length portion).trans vivaldi.dimension)
    · intro none
      rw [disabled none]
    · intro some
      obtain ⟨samples, index, adjustment⟩ := enabled some
      exact ⟨samples, index, gravity.adjustment.trans adjustment⟩

end Stages

theorem settle_keeps (client : CoordinateClient Id Number) :
    client.settle.opts = client.opts ∧ client.settle.origin = client.origin ∧
      client.settle.adjustmentIndex = client.adjustmentIndex ∧
      client.settle.adjustmentSamples = client.adjustmentSamples := by
  unfold settle
  split <;> simp

theorem settle_coord (client : CoordinateClient Id Number) :
    client.settle.coord =
      if client.coord.isValid then client.coord else .withOptions client.opts := by
  unfold settle
  split <;> rfl

end CoordinateClient

section Runs

open CoordinateClient

variable [DecidableEq Id] {opts : CoordinateOptions Number}
  {client after : CoordinateClient Id Number} {op : ClientOp Id Number}

inductive Called (client : CoordinateClient Id Number) :
    ClientOp Id Number → CoordinateClient Id Number → Prop where
  | moved (draws : Draws Number) (node : Id) (other : Coordinate Number) (rtt : Duration)
      (moved : CoordinateClient Id Number) (sample : Number)
      (accepted : client.accepts other rtt)
      (sampled : client.sample draws node other rtt = some sample)
      (moves : Moved client moved sample) :
      Called client (.update draws node other rtt) moved.settle
  | rejected (draws : Draws Number) (node : Id) (other : Coordinate Number) (rtt : Duration)
      (rejected : client.accepts other rtt = false) :
      Called client (.update draws node other rtt) client
  | placed (coord : Coordinate Number) (compatible : client.coord.isCompatibleWith coord)
      (valid : coord.isValid) : Called client (.setCoordinate coord) { client with coord }
  | stayed (coord : Coordinate Number) : Called client (.setCoordinate coord) client
  | forgotten (node : Id) : Called client (.forgetNode node) (client.forgetNode node)

theorem clientStep_called (work : Workable opts) (steady : Steady opts client)
    (op : ClientOp Id Number) :
    ∃ after, (clientStep (some client) op).1 = some after ∧ Called client op after := by
  cases op with
  | update draws node other rtt =>
    cases accepted : client.accepts other rtt with
    | false =>
      obtain ⟨reason, refused⟩ := update_rejected draws node other rtt accepted
      exact ⟨client, by simp [clientStep, ClientOp.call, refused], .rejected _ _ _ _ accepted⟩
    | true =>
      obtain ⟨moved, sample, sampled, updated, moves⟩ :=
        update_moves work steady draws node other rtt accepted
      exact ⟨moved.settle, by simp [clientStep, ClientOp.call, updated],
        .moved _ _ _ _ _ _ accepted sampled moves⟩
  | setCoordinate coord =>
    by_cases compatible : client.coord.isCompatibleWith coord
    · by_cases valid : coord.isValid
      · exact ⟨{ client with coord },
          by simp [clientStep, ClientOp.call, setCoordinate, checkCoordinate, compatible, valid],
          .placed _ compatible valid⟩
      · exact ⟨client,
          by simp [clientStep, ClientOp.call, setCoordinate, checkCoordinate, compatible, valid],
          .stayed _⟩
    · exact ⟨client,
        by simp [clientStep, ClientOp.call, setCoordinate, checkCoordinate, compatible],
        .stayed _⟩
  | forgetNode node => exact ⟨_, rfl, .forgotten _⟩

theorem Called.steady (called : Called client op after) (steady : Steady opts client) :
    Steady opts after := by
  cases called with
  | moved draws node other rtt moved sample accepted sampled moves =>
    obtain ⟨settings, origin, index, samples⟩ := settle_keeps moved
    refine ⟨settings.trans (moves.opts.trans steady.settings),
      origin.trans (moves.origin.trans steady.origin), ?_, ?_, ?_⟩
    · rw [settle_coord, moves.opts, steady.settings]
      split
      · exact moves.dimension.trans steady.dimension
      · simp [Coordinate.withOptions]
    · rw [samples]
      by_cases none : client.opts.adjustmentWindowSize = 0
      · rw [moves.disabled none]
        exact steady.window
      · rw [(moves.samples none).1, List.length_set]
        exact steady.window
    · intro some
      rw [← steady.settings] at some ⊢
      rw [index, (moves.samples some).2.1]
      exact Nat.mod_lt _ (Nat.pos_of_ne_zero some)
  | rejected => exact steady
  | placed coord compatible valid =>
    refine { steady with dimension := ?_ }
    rw [← steady.dimension, eq_comm]
    simpa [Coordinate.isCompatibleWith] using compatible
  | stayed => exact steady
  | forgotten node => exact { steady with }

theorem Called.valid (called : Called client op after) (work : Workable opts)
    (steady : Steady opts client) (valid : client.coord.isValid) :
    after.coord.isValid := by
  cases called with
  | moved draws node other rtt moved sample accepted sampled moves =>
    rw [settle_coord, moves.opts, steady.settings]
    split
    · assumption
    · exact work.fresh
  | rejected => exact valid
  | placed coord compatible good => exact good
  | stayed => exact valid
  | forgotten node => exact valid

/-- The client at the end of the calls, if none of them panics. -/
def clientAfter (opts : CoordinateOptions Number) (ops : List (ClientOp Id Number)) :
    Option (CoordinateClient Id Number) :=
  run clientStep (some (withOptions opts)) ops

theorem clientAfter_keeps (work : Workable opts)
    (holds : List (ClientOp Id Number) → CoordinateClient Id Number → Prop)
    (initial : holds [] (withOptions opts))
    (keeps : ∀ before client op after, clientAfter opts before = some client →
      Steady opts client → Called client op after → holds before client →
      holds (before ++ [op]) after)
    (ops : List (ClientOp Id Number)) :
    ∃ client, clientAfter opts ops = some client ∧ Steady opts client ∧ client.coord.isValid ∧
      holds ops client := by
  induction ops using List.reverseRecOn with
  | nil => exact ⟨withOptions opts, rfl, steady_withOptions opts, work.fresh, initial⟩
  | append_singleton before op ih =>
    obtain ⟨client, reached, steady, valid, held⟩ := ih
    obtain ⟨after, stepped, called⟩ := clientStep_called work steady op
    refine ⟨after, ?_, called.steady steady, called.valid work steady valid,
      keeps before client op after reached steady called held⟩
    rw [clientAfter, run_append]
    rw [clientAfter] at reached
    rw [reached]
    exact stepped

section Safety

theorem first_update_panics (laws : FloatingLaws Number) (opts : CoordinateOptions Number)
    (fresh : (Coordinate.withOptions opts).isValid)
    (bare : opts.dimensionality = 0 ∨ opts.latencyFilterSize = 0) (draws : Draws Number)
    (node : Id) :
    clientAfter opts [.update draws node (.withOptions opts) 0] = none := by
  have check : checkCoordinate (Coordinate.withOptions opts) (.withOptions opts) = .ok () := by
    simp [checkCoordinate, Coordinate.isCompatibleWith, fresh]
  have panics : (withOptions opts).update draws node (.withOptions opts) 0 = none := by
    rw [update]
    simp only [withOptions, check, maxRtt, Nat.not_lt_zero, if_false]
    by_cases positive : 0 < opts.latencyFilterSize
    · obtain ⟨middle, filtered⟩ :=
        latencyFilter_defined (withOptions opts) node (asSecs 0) positive
      have flat : opts.dimensionality = 0 := by omega
      simp only [withOptions] at filtered
      rw [filtered]
      simp [updateVivaldi, Coordinate.distanceTo, Coordinate.isCompatibleWith,
        Coordinate.applyForce, Coordinate.withOptions, flat, unitVectorAt_nil laws]
    · have none : opts.latencyFilterSize = 0 := by omega
      simp [latencyFilter, none, push, median]
  simp [clientAfter, run, clientStep, ClientOp.call, panics]

/-- With options that make a valid coordinate, the calls of a client never panic, and its
coordinate is valid and of the configured dimension after all of them, exactly if there is
at least one dimension and room for at least one latency sample. -/
theorem client_safe_iff [Nonempty Id] (laws : FloatingLaws Number)
    (opts : CoordinateOptions Number) (fresh : (Coordinate.withOptions opts).isValid) :
    (∀ ops : List (ClientOp Id Number), ∃ client, clientAfter opts ops = some client ∧
        client.coord.isValid ∧ client.coord.portion.length = opts.dimensionality) ↔
      0 < opts.dimensionality ∧ 0 < opts.latencyFilterSize := by
  constructor
  · intro safe
    by_contra bare
    obtain ⟨node⟩ := ‹Nonempty Id›
    have panics := first_update_panics laws opts fresh (by omega) ⟨fun _ => 0.0, fun _ => 0.0⟩ node
    obtain ⟨client, reached, _⟩ :=
      safe [.update ⟨fun _ => 0.0, fun _ => 0.0⟩ node (.withOptions opts) 0]
    rw [panics] at reached
    cases reached
  · rintro ⟨dimensions, positive⟩ ops
    obtain ⟨client, reached, steady, valid, _⟩ := clientAfter_keeps ⟨fresh, dimensions, positive⟩
      (fun _ _ => True) trivial (fun _ _ _ _ _ _ _ _ => trivial) ops
    exact ⟨client, reached, valid, steady.dimension⟩

/-- Two coordinates are accepted, one nearby and one so far away that the client starts
over; one without dimensions is refused. -/
def busyRun : List (ClientOp Nat Scale) :=
  [.update ⟨fun _ => .zero, fun _ => .zero⟩ 1 (.withOptions .new) 7,
    .update ⟨fun _ => .zero, fun _ => .zero⟩ 2 ⟨List.replicate 8 .huge, .plain, .zero, .plain⟩ 7,
    .update ⟨fun _ => .zero, fun _ => .zero⟩ 3 ⟨[], .plain, .zero, .plain⟩ 7, .forgetNode 2]

theorem client_safe_scales :
    ∃ client, clientAfter .new busyRun = some client ∧
      client.latencyFilterSamples.keys = [1] ∧ client.resets = 1 ∧
      client.coord.isValid ∧ client.coord.portion.length = 8 := by
  obtain ⟨client, reached, valid, eight⟩ :=
    (client_safe_iff Scale.laws CoordinateOptions.new (by decide)).mpr (by decide) busyRun
  have heard : (clientAfter .new busyRun).map (fun client =>
      (client.latencyFilterSamples.keys, client.resets)) = some ([1], 1) := by decide +kernel
  rw [reached, Option.map_some, Option.some.injEq, Prod.mk.injEq] at heard
  exact ⟨client, reached, heard.1, heard.2, valid, eight⟩

end Safety

end Runs

end Serf.Coordinates
