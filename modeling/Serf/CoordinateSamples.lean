import Serf.CoordinateRuns

/-!
The window of a coordinate client: the latest differences between what was measured and
what the coordinates say, which are averaged into the adjustment. It is a window of what
the whole run has accepted. A coordinate that is reset keeps it.
-/

namespace Serf.Coordinates

open Library.Collections Library.FloatingPoint Library.Machine Library.Recent CoordinateClient

variable {Id Number : Type} [DecidableEq Id] [Floating Number] {opts : CoordinateOptions Number}
  {client after : CoordinateClient Id Number} {op : ClientOp Id Number}

/-- An update that a client with these options does not refuse. -/
def ClientOp.accepted (opts : CoordinateOptions Number) : ClientOp Id Number → Bool
  | .update _ _ other rtt => (withOptions opts : CoordinateClient Id Number).accepts other rtt
  | _ => false

omit [DecidableEq Id] in
theorem accepts_eq (steady : Steady opts client) (other : Coordinate Number) (rtt : Duration) :
    client.accepts other rtt =
      (withOptions opts : CoordinateClient Id Number).accepts other rtt := by
  have initial : Steady opts (withOptions opts : CoordinateClient Id Number) :=
    steady_withOptions opts
  simp only [accepts, Coordinate.isCompatibleWith, steady.dimension, initial.dimension]

/-- The difference that a call puts into the window, if it is an accepted update. -/
def ClientOp.sample (state : Option (CoordinateClient Id Number)) :
    ClientOp Id Number → Option Number
  | .update draws node other rtt => state.bind fun client =>
    if client.accepts other rtt then client.sample draws node other rtt else none
  | _ => none

def samplesFrom (state : Option (CoordinateClient Id Number)) (ops : List (ClientOp Id Number)) :
    List Number :=
  (visits clientStep state ops).filterMap fun visit => visit.2.sample visit.1

/-- All differences that the calls on a new client have put into the window. -/
def samples (opts : CoordinateOptions Number) (ops : List (ClientOp Id Number)) : List Number :=
  samplesFrom (some (withOptions opts)) ops

theorem samplesFrom_append (state : Option (CoordinateClient Id Number))
    (first second : List (ClientOp Id Number)) :
    samplesFrom state (first ++ second) =
      samplesFrom state first ++ samplesFrom (run clientStep state first) second := by
  rw [samplesFrom, visits_append, List.filterMap_append]
  rfl

theorem samplesFrom_cons (state : Option (CoordinateClient Id Number)) (op : ClientOp Id Number)
    (rest : List (ClientOp Id Number)) :
    samplesFrom state (op :: rest) =
      (op.sample state).toList ++ samplesFrom (clientStep state op).1 rest := by
  rw [samplesFrom, visits, List.filterMap_cons]
  cases op.sample state <;> rfl

theorem Called.sample_isSome (called : Called client op after) (steady : Steady opts client) :
    (op.sample (some client)).isSome = op.accepted opts := by
  cases called with
  | moved draws node other rtt moved sample accepted sampled moves =>
    rw [ClientOp.accepted, ← accepts_eq steady, accepted]
    simp [ClientOp.sample, accepted, sampled]
  | rejected draws node other rtt rejected =>
    rw [ClientOp.accepted, ← accepts_eq steady, rejected]
    simp [ClientOp.sample, rejected]
  | placed coord compatible valid => rfl
  | stayed coord => rfl
  | forgotten node => rfl

theorem samplesFrom_length (work : Workable opts) (ops : List (ClientOp Id Number))
    (client : CoordinateClient Id Number) (steady : Steady opts client) :
    (samplesFrom (some client) ops).length = ops.countP (ClientOp.accepted opts) := by
  induction ops generalizing client with
  | nil => rfl
  | cons op rest ih =>
    obtain ⟨after, stepped, called⟩ := clientStep_called work steady op
    have one := called.sample_isSome steady
    rw [samplesFrom_cons, stepped, List.length_append, ih after (called.steady steady),
      List.countP_cons, ← one]
    cases op.sample (some client) <;> simp [Nat.add_comm]

theorem Called.wraps {items : List Number} (called : Called client op after)
    (steady : Steady opts client) (enabled : opts.adjustmentWindowSize ≠ 0)
    (wraps : Wraps 0.0 client.adjustmentSamples client.adjustmentIndex items) :
    Wraps 0.0 after.adjustmentSamples after.adjustmentIndex
      (items ++ (op.sample (some client)).toList) := by
  cases called with
  | moved draws node other rtt moved sample accepted sampled moves =>
    obtain ⟨_, _, index, samples⟩ := settle_keeps moved
    obtain ⟨written, next, _⟩ := moves.samples (by rw [steady.settings]; exact enabled)
    have put : (ClientOp.update draws node other rtt).sample (some client) = some sample := by
      simp [ClientOp.sample, accepted, sampled]
    rw [put, index, samples, written, next, steady.settings, ← steady.window]
    exact wraps.overwrite sample
  | rejected draws node other rtt rejected =>
    have none : (ClientOp.update draws node other rtt).sample (some client) = none := by
      simp [ClientOp.sample, rejected]
    rw [none, Option.toList_none, List.append_nil]
    exact wraps
  | placed coord compatible valid => simpa [ClientOp.sample] using wraps
  | stayed coord => simpa [ClientOp.sample] using wraps
  | forgotten node => simpa [ClientOp.sample, forgetNode] using wraps

theorem clientAfter_wraps (work : Workable opts) (enabled : opts.adjustmentWindowSize ≠ 0)
    (ops : List (ClientOp Id Number)) :
    ∃ client, clientAfter opts ops = some client ∧ Steady opts client ∧
      Wraps 0.0 client.adjustmentSamples client.adjustmentIndex (samples opts ops) := by
  obtain ⟨client, reached, steady, _, wraps⟩ := clientAfter_keeps work
    (fun ops client =>
      Wraps 0.0 client.adjustmentSamples client.adjustmentIndex (samples opts ops))
    (wraps_filled 0.0 _ (Nat.pos_of_ne_zero enabled))
    (by
      intro before client op after reached steady called wraps
      have grown : samples opts (before ++ [op]) =
          samples opts before ++ (op.sample (some client)).toList := by
        rw [samples, samplesFrom_append, samplesFrom_cons, ← reached, clientAfter]
        simp [samplesFrom, visits, samples]
      rw [grown]
      exact called.wraps steady enabled wraps) ops
  exact ⟨client, reached, steady, wraps⟩

theorem Called.adjusts (called : Called client op after) (steady : Steady opts client)
    (enabled : opts.adjustmentWindowSize ≠ 0) (accepted : op.accepted opts) :
    (after.coord = .withOptions opts ∧ after.resets = client.resets + 1) ∨
      (after.coord.isValid ∧ after.resets = client.resets ∧ after.coord.adjustment =
        sum after.adjustmentSamples / (2.0 * (opts.adjustmentWindowSize : Number))) := by
  cases called with
  | moved draws node other rtt moved sample _ sampled moves =>
    obtain ⟨_, _, average⟩ := moves.samples (by rw [steady.settings]; exact enabled)
    rw [(settle_keeps moved).2.2.2, ← steady.settings, ← moves.opts, ← moves.resets]
    rw [← moves.opts] at average
    unfold settle
    split
    · rename_i valid
      exact Or.inr ⟨valid, rfl, average⟩
    · exact Or.inl ⟨rfl, rfl⟩
  | rejected draws node other rtt rejected =>
    rw [ClientOp.accepted, ← accepts_eq steady, rejected] at accepted
    cases accepted
  | placed coord compatible valid => cases accepted
  | stayed coord => cases accepted
  | forgotten node => cases accepted

/-- Behind every accepted update the window holds the differences of the last accepted
updates, with zeros in front while there are not enough of them, and the adjustment is
half their mean unless the coordinate was reset. -/
theorem adjustment_averages (opts : CoordinateOptions Number)
    (work : Workable opts) (enabled : opts.adjustmentWindowSize ≠ 0)
    (ops : List (ClientOp Id Number)) (op : ClientOp Id Number) (accepted : op.accepted opts) :
    ∃ client, clientAfter opts (ops ++ [op]) = some client ∧
      (samples opts (ops ++ [op])).length = (ops ++ [op]).countP (ClientOp.accepted opts) ∧
      client.adjustmentSamples.rotate client.adjustmentIndex =
        (List.replicate opts.adjustmentWindowSize 0.0 ++ samples opts (ops ++ [op])).rtake
          opts.adjustmentWindowSize ∧
      (client.coord = .withOptions opts ∨ client.coord.adjustment =
        sum client.adjustmentSamples / (2.0 * (opts.adjustmentWindowSize : Number))) := by
  obtain ⟨previous, reached, steady, _⟩ := clientAfter_wraps work enabled ops
  obtain ⟨client, stepped, called⟩ := clientStep_called work steady op
  obtain ⟨other, again, steadyAfter, wraps⟩ :=
    clientAfter_wraps work enabled (ops ++ [op])
  have same : clientAfter opts (ops ++ [op]) = some client := by
    rw [clientAfter, run_append, ← clientAfter, reached]
    exact stepped
  obtain rfl : client = other := Option.some.inj (same.symm.trans again)
  refine ⟨client, same, ?_, ?_, ?_⟩
  · exact samplesFrom_length work _ _ (steady_withOptions opts)
  · rw [← steadyAfter.window]
    exact wraps.latest
  · rcases called.adjusts steady enabled accepted with reset | kept
    · exact Or.inl reset.1
    · exact Or.inr kept.2.2

def farAway : ClientOp Nat Scale :=
  .update ⟨fun _ => .zero, fun _ => .zero⟩ 1 ⟨List.replicate 8 .huge, .plain, .zero, .plain⟩ 7

def nearBy : ClientOp Nat Scale :=
  .update ⟨fun _ => .zero, fun _ => .zero⟩ 2 (.withOptions .new) 7

theorem adjustment_averages_scales :
    ∃ client, clientAfter CoordinateOptions.new ([nearBy] ++ [nearBy]) = some client ∧
      (samples .new ([nearBy] ++ [nearBy])).length =
        ([nearBy] ++ [nearBy]).countP (ClientOp.accepted .new) ∧
      client.adjustmentSamples.rotate client.adjustmentIndex =
        (List.replicate 20 0.0 ++ samples .new ([nearBy] ++ [nearBy])).rtake 20 ∧
      (client.coord = .withOptions .new ∨ client.coord.adjustment =
        sum client.adjustmentSamples / (2.0 * ((20 : Nat) : Scale))) :=
  adjustment_averages .new ⟨by decide, by decide, by decide⟩ (by decide) [nearBy] nearBy
    (by decide)

/-- A difference that is not finite outlives the reset that it causes: as long as it is in
the window, every accepted update ends in another reset. -/
theorem poisoned_resets (laws : FloatingLaws Number) (opts : CoordinateOptions Number)
    (work : Workable opts) (before rest : List (ClientOp Id Number))
    (poison op : ClientOp Id Number) (x : Number)
    (sampled : poison.sample (clientAfter opts before) = some x)
    (infinite : Floating.isFinite x = false)
    (near : rest.countP (ClientOp.accepted opts) < opts.adjustmentWindowSize)
    (last : (poison :: rest).getLast? = some op) (accepted : op.accepted opts) :
    ∃ previous client, clientAfter opts (before ++ (poison :: rest).dropLast) = some previous ∧
      clientAfter opts (before ++ poison :: rest) = some client ∧
      client.coord = .withOptions opts ∧ client.resets = previous.resets + 1 := by
  have enabled : opts.adjustmentWindowSize ≠ 0 := by omega
  have split : poison :: rest = (poison :: rest).dropLast ++ [op] :=
    (List.dropLast_append_getLast? op last).symm
  obtain ⟨start, begun, steadyStart, _⟩ :=
    clientAfter_wraps work enabled before
  obtain ⟨next, moved, calledFirst⟩ := clientStep_called work steadyStart poison
  obtain ⟨previous, reached, steady, _⟩ := clientAfter_wraps work enabled
    (before ++ (poison :: rest).dropLast)
  obtain ⟨client, stepped, called⟩ := clientStep_called work steady op
  obtain ⟨other, again, steadyAfter, wraps⟩ := clientAfter_wraps work enabled
    (before ++ poison :: rest)
  have same : clientAfter opts (before ++ poison :: rest) = some client := by
    rw [split, ← List.append_assoc, clientAfter, run_append, ← clientAfter, reached]
    exact stepped
  obtain rfl : client = other := Option.some.inj (same.symm.trans again)
  refine ⟨previous, client, reached, same, ?_⟩
  -- The difference is among the last ones.
  have put : samples opts (before ++ poison :: rest) =
      samples opts before ++ x :: samplesFrom (some next) rest := by
    rw [samples, samplesFrom_append, samplesFrom_cons, ← clientAfter, sampled, begun, moved]
    rfl
  rw [put] at wraps
  have inside : x ∈ client.adjustmentSamples := by
    apply wraps.mem
    rw [samplesFrom_length work rest next (calledFirst.steady steadyStart),
      steadyAfter.window]
    exact near
  rcases called.adjusts steady enabled accepted with reset | ⟨valid, _, average⟩
  · exact reset
  · simp only [Coordinate.isValid, Bool.and_eq_true, average] at valid
    have finite := finite_of_sum laws _ (laws.finite_div _ _ valid.1.2) x inside
    rw [infinite] at finite
    cases finite

theorem poisoned_resets_scales :
    ∃ previous client, clientAfter .new [farAway] = some previous ∧
      clientAfter .new [farAway, nearBy] = some client ∧
      client.coord = .withOptions .new ∧ client.resets = previous.resets + 1 :=
  poisoned_resets Scale.laws .new ⟨by decide, by decide, by decide⟩ [] [nearBy] farAway nearBy
    .beyond (by decide +kernel) (by decide) (by decide) rfl (by decide)

end Serf.Coordinates
