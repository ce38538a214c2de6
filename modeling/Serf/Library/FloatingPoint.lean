import Mathlib.Data.Fintype.Pi
import Serf.Library.Recent

/-!
Floating-point arithmetic as a parameter. Programs are written over the operations; what
is proved about them rests on the few laws below, which binary floating point meets with
its infinities and its NaN. The scales at the end are an arithmetic small enough to run
such programs by hand: they keep of a number only how large it is.
-/

namespace Serf.Library.FloatingPoint

class Floating (Number : Type) extends
    Add Number, Sub Number, Mul Number, Div Number, Neg Number, Max Number, Min Number,
    NatCast Number, OfScientific Number where
  abs : Number → Number
  sqrt : Number → Number
  recip : Number → Number
  powf : Number → Number → Number
  less : Number → Number → Bool
  isFinite : Number → Bool
  /-- The conversion to an unsigned integer, which cuts off the fraction and saturates. -/
  toU64 : Number → UInt64

open Floating (less isFinite)

variable {Number : Type} [Floating Number]

def asSecs (nanos : Nat) : Number :=
  ((nanos / 1000000000 : Nat) : Number) +
    ((nanos % 1000000000 : Nat) : Number) / ((1000000000 : Nat) : Number)

def sum (numbers : List Number) : Number := numbers.foldl (· + ·) 0.0

def ascends (x y : Number) : Bool := !less y x

variable (Number) in
structure FloatingLaws : Prop where
  finite_add : ∀ x y : Number, isFinite (x + y) → isFinite x ∧ isFinite y
  finite_div : ∀ x y : Number, isFinite (x / y) → isFinite x
  sqrt_zero : less 1.0e-6 (Floating.sqrt (0.0 : Number)) = false

theorem finite_of_foldl (laws : FloatingLaws Number) (numbers : List Number) (start : Number)
    (finite : isFinite (numbers.foldl (· + ·) start)) :
    isFinite start ∧ ∀ x ∈ numbers, isFinite x := by
  induction numbers generalizing start with
  | nil => exact ⟨finite, by simp⟩
  | cons first rest ih =>
    obtain ⟨both, later⟩ := ih (start + first) finite
    obtain ⟨before, now⟩ := laws.finite_add start first both
    refine ⟨before, ?_⟩
    intro x member
    rcases List.mem_cons.mp member with rfl | inside
    · exact now
    · exact later x inside

theorem finite_of_sum (laws : FloatingLaws Number) (numbers : List Number)
    (finite : isFinite (sum numbers)) : ∀ x ∈ numbers, isFinite x :=
  (finite_of_foldl laws numbers 0.0 finite).2

section Scales

/-- Numbers by their size: nothing, an ordinary number, one whose square cannot be
represented, and what is not finite. -/
inductive Scale where
  | zero
  | plain
  | huge
  | beyond
  deriving DecidableEq

namespace Scale

instance : Fintype Scale := ⟨{zero, plain, huge, beyond}, by intro x; cases x <;> decide⟩

def rank : Scale → Nat
  | zero => 0
  | plain => 1
  | huge => 2
  | beyond => 3

def join (x y : Scale) : Scale := if x.rank ≤ y.rank then y else x

def product : Scale → Scale → Scale
  | beyond, _ => beyond
  | _, beyond => beyond
  | zero, _ => zero
  | _, zero => zero
  | plain, y => y
  | x, plain => x
  | huge, huge => beyond

instance : Floating Scale where
  add := join
  sub := join
  mul := product
  div x y := if x = beyond ∨ y = zero then beyond else x
  neg x := x
  max x y := if x = beyond then y else join x y
  min x y := if x.rank ≤ y.rank then x else y
  natCast n := if n = 0 then zero else plain
  ofScientific mantissa _ _ := if mantissa = 0 then zero else plain
  abs x := x
  sqrt x := x
  recip x := if x = zero then beyond else x
  powf x y := product x y
  less x y := x ≠ beyond ∧ y ≠ beyond ∧ x.rank < y.rank
  isFinite x := x ≠ beyond
  toU64 x := if x = zero then 0 else 1

theorem laws : FloatingLaws Scale where
  finite_add := by decide
  finite_div := by decide
  sqrt_zero := by decide

end Scale

end Scales

end Serf.Library.FloatingPoint
