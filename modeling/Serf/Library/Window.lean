import Mathlib.Order.Defs.LinearOrder
import Mathlib.Data.Nat.ModEq
import Mathlib.Tactic.Ring

/-!
A ring of `size` slots indexed by stamps modulo `size`, read through a window
that trails a clock. A stamp inside the window never lies a whole lap behind a
stamp that the clock has already passed; this is what makes overwriting a slot
safe. Stamps are 64-bit words, so the linear order of those words is here too.
-/

namespace Serf.Library.Window

instance wordOrder : LinearOrder UInt64 where
  le_refl := UInt64.le_refl
  le_trans _ _ _ := UInt64.le_trans
  le_antisymm _ _ := UInt64.le_antisymm
  le_total := UInt64.le_total
  lt_iff_le_not_ge left right := by
    simp only [UInt64.lt_iff_toNat_lt, UInt64.le_iff_toNat_le]
    omega
  toDecidableLE := inferInstance
  toDecidableEq := inferInstance
  toDecidableLT := inferInstance

/-- The stamp is more than `size` behind the clock. -/
def TooOld (clock size stamp : UInt64) : Prop :=
  size < clock ∧ stamp < clock - size

instance (clock size stamp : UInt64) : Decidable (TooOld clock size stamp) :=
  inferInstanceAs (Decidable (_ ∧ _))

/-- The stamp is at most `size` behind the clock. -/
def InWindow (clock size stamp : UInt64) : Prop :=
  clock ≤ size ∨ clock - size ≤ stamp

instance (clock size stamp : UInt64) : Decidable (InWindow clock size stamp) :=
  inferInstanceAs (Decidable (_ ∨ _))

theorem inWindow_iff (clock size stamp : UInt64) :
    InWindow clock size stamp ↔ ¬ TooOld clock size stamp := by
  unfold InWindow TooOld
  rw [not_and_or, not_lt, not_lt]

theorem tooOld_mono (clock later size stamp : UInt64) (grows : clock ≤ later)
    (old : TooOld clock size stamp) : TooOld later size stamp := by
  unfold TooOld at *
  grind

theorem tooOld_empty (clock stamp : UInt64) (passed : stamp < clock) :
    TooOld clock 0 stamp := by
  unfold TooOld
  grind

theorem lap_apart (size low high : UInt64) (same : low % size = high % size)
    (less : low < high) : low.toNat + size.toNat ≤ high.toNat := by
  have residues : low.toNat % size.toNat = high.toNat % size.toNat := by
    simpa [UInt64.toNat_mod] using congrArg UInt64.toNat same
  have order : low.toNat < high.toNat := UInt64.lt_iff_toNat_lt.mp less
  have divides : size.toNat ∣ high.toNat - low.toNat :=
    (Nat.modEq_iff_dvd' (le_of_lt order)).mp residues
  have bound := Nat.le_of_dvd (by omega) divides
  omega

theorem window_not_lapped (clock size stamp passed : UInt64)
    (inside : InWindow clock size stamp) (behind : passed < clock)
    (same : stamp % size = passed % size) : passed ≤ stamp := by
  by_contra lower
  have less : stamp < passed := lt_of_not_ge lower
  have lap := lap_apart size stamp passed same less
  have order : passed.toNat < clock.toNat := UInt64.lt_iff_toNat_lt.mp behind
  rcases inside with young | near
  · have bound := UInt64.le_iff_toNat_le.mp young
    omega
  · have fits : size ≤ clock := UInt64.le_iff_toNat_le.mpr (by omega)
    have bound := UInt64.le_iff_toNat_le.mp near
    rw [UInt64.toNat_sub_of_le _ _ fits] at bound
    omega

theorem tooOld_of_lapped (clock size stamp newer : UInt64) (less : stamp < newer)
    (behind : newer < clock) (same : stamp % size = newer % size) :
    TooOld clock size stamp := by
  have lap := lap_apart size stamp newer same less
  have order : newer.toNat < clock.toNat := UInt64.lt_iff_toNat_lt.mp behind
  have fits : size < clock := UInt64.lt_iff_toNat_lt.mpr (by omega)
  refine ⟨fits, UInt64.lt_iff_toNat_lt.mpr ?_⟩
  rw [UInt64.toNat_sub_of_le _ _ (le_of_lt fits)]
  omega

end Serf.Library.Window
