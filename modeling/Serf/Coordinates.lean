import Serf.Library.FloatingPoint
import Serf.Library.Machine
import Serf.Types

/-!
Network coordinates and the client that keeps them, over any floating-point arithmetic.
`none` is a panic: a failed assertion or an index out of bounds. The random words are
read from outside, one stream for each use of a force. A client takes its lock once in
each call, so a call is one step, and a client that has panicked is gone. The counter of
the resets does not wrap.
-/

namespace Serf.Coordinates

open Library.Collections Library.FloatingPoint Library.Machine Library.Recent

variable {Id Number : Type} [DecidableEq Id] [Floating Number]

structure CoordinateOptions (Number : Type) where
  dimensionality : Nat
  vivaldiErrorMax : Number
  vivaldiCe : Number
  vivaldiCc : Number
  adjustmentWindowSize : Nat
  heightMin : Number
  latencyFilterSize : Nat
  gravityRho : Number

def CoordinateOptions.new : CoordinateOptions Number where
  dimensionality := 8
  vivaldiErrorMax := 1.5
  vivaldiCe := 0.25
  vivaldiCc := 0.25
  adjustmentWindowSize := 20
  heightMin := 10.0e-6
  latencyFilterSize := 3
  gravityRho := 150.0

structure Coordinate (Number : Type) where
  portion : List Number
  error : Number
  adjustment : Number
  height : Number
  deriving DecidableEq

inductive CoordinateError where
  | dimensionalityMismatch
  | invalidCoordinate
  | invalidRtt (rtt : Duration)
  deriving DecidableEq

section Vectors

def addInPlace : List Number → List Number → List Number
  | x :: vec1, y :: vec2 => (x + y) :: addInPlace vec1 vec2
  | vec1, _ => vec1

def diff (vec1 vec2 : List Number) : List Number := List.zipWith (· - ·) vec1 vec2

def mulInPlace (vec : List Number) (factor : Number) : List Number := vec.map (· * factor)

def magnitudeInPlace (vec : List Number) : Number :=
  Floating.sqrt (vec.foldl (fun acc x => acc + x * x) 0.0)

def zeroThreshold : Number := 1.0e-6

/-- A unit vector at `vec1` from `vec2`, with their distance. Two that are on top of each
other get a random direction, and if that fails too the first axis. -/
def unitVectorAt (draws : Nat → Number) (vec1 vec2 : List Number) :
    Option (List Number × Number) :=
  let ret := diff vec1 vec2
  let mag := magnitudeInPlace ret
  if Floating.less zeroThreshold mag then some (mulInPlace ret (Floating.recip mag), mag)
  else
    let ret := ret.mapIdx fun i _ => draws i - 0.5
    let mag := magnitudeInPlace ret
    if Floating.less zeroThreshold mag then some (mulInPlace ret (Floating.recip mag), 0.0)
    else
      match ret.map fun _ => 0.0 with
      | [] => none
      | _ :: rest => some (1.0 :: rest, 0.0)

end Vectors

namespace Coordinate

def withOptions (opts : CoordinateOptions Number) : Coordinate Number where
  portion := List.replicate opts.dimensionality 0.0
  error := opts.vivaldiErrorMax
  adjustment := 0.0
  height := opts.heightMin

def isValid (this : Coordinate Number) : Bool :=
  this.portion.all Floating.isFinite && Floating.isFinite this.error &&
    Floating.isFinite this.adjustment && Floating.isFinite this.height

omit [Floating Number] in
def isCompatibleWith (this other : Coordinate Number) : Bool :=
  this.portion.length == other.portion.length

/-- `apply_force_in_place`; `apply_force` does the same to a copy. -/
def applyForce (draws : Nat → Number) (this : Coordinate Number) (heightMin force : Number)
    (other : Coordinate Number) : Option (Coordinate Number) :=
  if this.isCompatibleWith other then
    (unitVectorAt draws this.portion other.portion).map fun (unit, mag) =>
      let moved := { this with portion := addInPlace this.portion (mulInPlace unit force) }
      if Floating.less zeroThreshold mag then
        { moved with
          height := max ((this.height + other.height) * force / mag + this.height) heightMin }
      else moved
  else none

def rawDistanceTo (this other : Coordinate Number) : Number :=
  magnitudeInPlace (diff this.portion other.portion) + this.height + other.height

def distanceTo (this other : Coordinate Number) : Option Duration :=
  if this.isCompatibleWith other then
    let dist := this.rawDistanceTo other
    let adjusted := dist + this.adjustment + other.adjustment
    let dist := if Floating.less 0.0 adjusted then adjusted else dist
    some (Floating.toU64 (dist * 1.0e9)).toNat
  else none

end Coordinate

structure CoordinateClient (Id Number : Type) where
  coord : Coordinate Number
  origin : Coordinate Number
  opts : CoordinateOptions Number
  adjustmentIndex : Nat
  adjustmentSamples : List Number
  latencyFilterSamples : Table Id (List Number)
  resets : Nat

/-- The random words of one update. -/
structure Draws (Number : Type) where
  vivaldi : Nat → Number
  gravity : Nat → Number

namespace CoordinateClient

def withOptions (opts : CoordinateOptions Number) : CoordinateClient Id Number where
  coord := .withOptions opts
  origin := .withOptions opts
  opts := opts
  adjustmentIndex := 0
  adjustmentSamples := List.replicate opts.adjustmentWindowSize 0.0
  latencyFilterSamples := ∅
  resets := 0

def checkCoordinate (this coord : Coordinate Number) : Except CoordinateError Unit :=
  if !this.isCompatibleWith coord then .error .dimensionalityMismatch
  else if !coord.isValid then .error .invalidCoordinate
  else .ok ()

def gravityForce (client : CoordinateClient Id Number) (dist : Duration) : Number :=
  -(Floating.powf (((dist / 1000000000 : Nat) : Number) / client.opts.gravityRho) 2.0)

def updateGravity (draws : Nat → Number) (client : CoordinateClient Id Number) :
    Option (CoordinateClient Id Number) := do
  let dist ← client.origin.distanceTo client.coord
  let coord ← client.coord.applyForce draws client.opts.heightMin (client.gravityForce dist)
    client.origin
  return { client with coord }

def latencyFilter (node : Id) (rttSeconds : Number) (client : CoordinateClient Id Number) :
    Option (CoordinateClient Id Number × Number) :=
  let samples := push client.opts.latencyFilterSize
    ((client.latencyFilterSamples.lookup node).getD []) rttSeconds
  (median ascends samples).map fun middle =>
    ({ client with latencyFilterSamples := client.latencyFilterSamples.insert node samples },
      middle)

def weight (client : CoordinateClient Id Number) (other : Coordinate Number) : Number :=
  let totalError := max (client.coord.error + other.error) zeroThreshold
  client.coord.error / totalError

def vivaldiError (client : CoordinateClient Id Number) (other : Coordinate Number)
    (dist rttSeconds : Number) : Number :=
  let wrongness := Floating.abs ((dist - rttSeconds) / rttSeconds)
  min
    (client.opts.vivaldiCe * client.weight other * wrongness +
      client.coord.error * (1.0 - client.opts.vivaldiCe * client.weight other))
    client.opts.vivaldiErrorMax

def vivaldiForce (client : CoordinateClient Id Number) (other : Coordinate Number)
    (dist rttSeconds : Number) : Number :=
  client.opts.vivaldiCc * client.weight other * (rttSeconds - dist)

def updateVivaldi (draws : Nat → Number) (other : Coordinate Number) (rttSeconds : Number)
    (client : CoordinateClient Id Number) : Option (CoordinateClient Id Number) := do
  let dist : Number := asSecs (← client.coord.distanceTo other)
  let rttSeconds := max rttSeconds zeroThreshold
  let error := client.vivaldiError other dist rttSeconds
  let force := client.vivaldiForce other dist rttSeconds
  let coord ← { client.coord with error }.applyForce draws client.opts.heightMin force other
  return { client with coord }

def updateAdjustment (other : Coordinate Number) (rttSeconds : Number)
    (client : CoordinateClient Id Number) : Option (CoordinateClient Id Number) :=
  if client.opts.adjustmentWindowSize = 0 then some client
  else
    let dist := client.coord.rawDistanceTo other
    if client.adjustmentIndex < client.adjustmentSamples.length then
      let samples := client.adjustmentSamples.set client.adjustmentIndex (rttSeconds - dist)
      some { client with
        adjustmentSamples := samples
        adjustmentIndex := (client.adjustmentIndex + 1) % client.opts.adjustmentWindowSize
        coord := { client.coord with
          adjustment := sum samples / (2.0 * (client.opts.adjustmentWindowSize : Number)) } }
    else none

/-- The end of `update`: a coordinate that is not valid is given up for a new one. -/
def settle (client : CoordinateClient Id Number) : CoordinateClient Id Number :=
  if client.coord.isValid then client
  else { client with coord := .withOptions client.opts, resets := client.resets + 1 }

def maxRtt : Duration := 10000000000

def update (draws : Draws Number) (node : Id) (other : Coordinate Number) (rtt : Duration)
    (client : CoordinateClient Id Number) :
    Option (CoordinateClient Id Number × Except CoordinateError (Coordinate Number)) :=
  match checkCoordinate client.coord other with
  | .error reason => some (client, .error reason)
  | .ok () =>
    if maxRtt < rtt then some (client, .error (.invalidRtt rtt))
    else do
      let (client, rttSeconds) ← client.latencyFilter node (asSecs rtt)
      let client ← client.updateVivaldi draws.vivaldi other rttSeconds
      let client ← client.updateAdjustment other rttSeconds
      let client ← client.updateGravity draws.gravity
      return (client.settle, .ok client.settle.coord)

def setCoordinate (coord : Coordinate Number) (client : CoordinateClient Id Number) :
    CoordinateClient Id Number × Except CoordinateError Unit :=
  match checkCoordinate client.coord coord with
  | .error reason => (client, .error reason)
  | .ok () => ({ client with coord }, .ok ())

omit [Floating Number] in
def forgetNode (node : Id) (client : CoordinateClient Id Number) : CoordinateClient Id Number :=
  { client with latencyFilterSamples := client.latencyFilterSamples.erase node }

end CoordinateClient

inductive ClientOp (Id Number : Type) where
  | update (draws : Draws Number) (node : Id) (other : Coordinate Number) (rtt : Duration)
  | setCoordinate (coord : Coordinate Number)
  | forgetNode (node : Id)

/-- The state behind a call, and its error. -/
def ClientOp.call (client : CoordinateClient Id Number) :
    ClientOp Id Number → Option (CoordinateClient Id Number × Option CoordinateError)
  | .update draws node other rtt =>
    (client.update draws node other rtt).map fun (after, result) =>
      (after, match result with
        | .ok _ => none
        | .error reason => some reason)
  | .setCoordinate coord =>
    let (after, result) := client.setCoordinate coord
    some (after, match result with
      | .ok () => none
      | .error reason => some reason)
  | .forgetNode node => some (client.forgetNode node, none)

def clientStep (state : Option (CoordinateClient Id Number)) (op : ClientOp Id Number) :
    Option (CoordinateClient Id Number) × Option CoordinateError :=
  match state.bind fun client => op.call client with
  | none => (none, none)
  | some (after, reason) => (some after, reason)

end Serf.Coordinates
