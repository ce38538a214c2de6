import Serf.Library.Window

/-!
A ring of optional slots indexed by a stamp modulo its size. A read answers
`none` where the arithmetic or the index of the underlying vector would panic:
a ring without slots has no residue to read.
-/

namespace Serf.Library.Slots

structure SlotRing (Slot : Type) where
  slots : List (Option Slot)
  fits : slots.length < 2 ^ 64

variable {Slot : Type}

def vacant (size : Nat) (fits : size < 2 ^ 64) : SlotRing Slot where
  slots := List.replicate size none
  fits := by simpa using fits

def size (ring : SlotRing Slot) : UInt64 := UInt64.ofNat ring.slots.length

def index (ring : SlotRing Slot) (stamp : UInt64) : Nat := (stamp % size ring).toNat

def readSlot (ring : SlotRing Slot) (stamp : UInt64) : Option (Option Slot) :=
  if size ring = 0 then none else ring.slots[index ring stamp]?

def writeSlot (ring : SlotRing Slot) (stamp : UInt64) (slot : Slot) : SlotRing Slot where
  slots := ring.slots.set (index ring stamp) (some slot)
  fits := by simpa using ring.fits

variable (ring : SlotRing Slot)

theorem size_toNat : (size ring).toNat = ring.slots.length := by
  have fits := ring.fits
  simp only [size, UInt64.toNat_ofNat']
  exact Nat.mod_eq_of_lt fits

@[simp] theorem size_writeSlot (stamp : UInt64) (slot : Slot) :
    size (writeSlot ring stamp slot) = size ring := by
  simp [size, writeSlot]

theorem size_vacant (count : Nat) (fits : count < 2 ^ 64) :
    size (vacant count fits : SlotRing Slot) = UInt64.ofNat count := by
  simp [size, vacant]

variable (stamp other : UInt64)

@[simp] theorem index_writeSlot (slot : Slot) :
    index (writeSlot ring stamp slot) other = index ring other := by
  simp [index]

theorem index_inside (positive : size ring ≠ 0) : index ring stamp < ring.slots.length := by
  have some : 0 < (size ring).toNat := by
    rw [Nat.pos_iff_ne_zero]
    intro zero
    exact positive (UInt64.toNat_inj.mp zero)
  rw [index, UInt64.toNat_mod, ← size_toNat]
  exact Nat.mod_lt _ some

theorem index_eq_iff :
    index ring stamp = index ring other ↔ stamp % size ring = other % size ring :=
  UInt64.toNat_inj

theorem readSlot_defined (positive : size ring ≠ 0) : ∃ slot, readSlot ring stamp = some slot := by
  have inside := index_inside ring stamp positive
  exact ⟨ring.slots[index ring stamp], by simp [readSlot, positive]⟩

theorem readSlot_source (slot : Slot) (found : readSlot ring stamp = some (some slot)) :
    ring.slots[index ring stamp]? = some (some slot) := by
  unfold readSlot at found
  split at found
  · cases found
  · exact found

theorem readSlot_ofNat (i : Nat) (slot : Option Slot) (here : ring.slots[i]? = some slot) :
    readSlot ring (UInt64.ofNat i) = some slot := by
  obtain ⟨inside, _⟩ := List.getElem?_eq_some_iff.mp here
  have fits := ring.fits
  have positive : size ring ≠ 0 := by
    intro zero
    have length := size_toNat ring
    rw [zero, UInt64.toNat_zero] at length
    omega
  have place : index ring (UInt64.ofNat i) = i := by
    rw [index, UInt64.toNat_mod, size_toNat, UInt64.toNat_ofNat_of_lt' (lt_trans inside fits)]
    exact Nat.mod_eq_of_lt inside
  rw [readSlot, if_neg positive, place, here]

theorem readSlot_write (slot : Slot) (positive : size ring ≠ 0) :
    readSlot (writeSlot ring stamp slot) other =
      if stamp % size ring = other % size ring then some (some slot) else readSlot ring other := by
  have inside := index_inside ring stamp positive
  rw [readSlot, readSlot, size_writeSlot, if_neg positive, if_neg positive, index_writeSlot]
  by_cases same : stamp % size ring = other % size ring
  · have here := (index_eq_iff ring stamp other).mpr same
    simp [writeSlot, same, ← here, inside]
  · have apart : index ring stamp ≠ index ring other :=
      fun here => same ((index_eq_iff ring stamp other).mp here)
    simp [writeSlot, same, List.getElem?_set_ne apart]

theorem readSlot_vacant (count : Nat) (fits : count < 2 ^ 64) (stamp : UInt64) (slot : Slot) :
    readSlot (vacant count fits : SlotRing Slot) stamp ≠ some (some slot) := by
  unfold readSlot
  split
  · simp
  · simp [vacant, List.getElem?_replicate]

end Serf.Library.Slots
