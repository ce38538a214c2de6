import Mathlib.Order.Lattice
import Mathlib.Data.List.Basic

/-!
A register that keeps the entry with the newest stamp. An entry that is not
strictly newer than the held one is dropped, so a register that has seen a set
of entries with distinct stamps holds the newest of them, whatever the order.
-/

namespace Serf.Library.LastWriter

variable {Stamp Value : Type} [LinearOrder Stamp]

def write (held incoming : Stamp × Value) : Stamp × Value :=
  if held.1 < incoming.1 then incoming else held

def settle (held : Stamp × Value) (writes : List (Stamp × Value)) : Stamp × Value :=
  writes.foldl write held

theorem write_newer (held incoming : Stamp × Value) (newer : held.1 < incoming.1) :
    write held incoming = incoming := if_pos newer

theorem write_older (held incoming : Stamp × Value) (older : ¬ held.1 < incoming.1) :
    write held incoming = held := if_neg older

theorem write_keeps_newer (held incoming : Stamp × Value) :
    held.1 ≤ (write held incoming).1 ∧ incoming.1 ≤ (write held incoming).1 := by
  unfold write
  split
  · rename_i newer
    exact ⟨le_of_lt newer, le_refl _⟩
  · rename_i older
    exact ⟨le_refl _, le_of_not_gt older⟩

theorem settle_above_held (held : Stamp × Value) (writes : List (Stamp × Value)) :
    held.1 ≤ (settle held writes).1 := by
  induction writes generalizing held with
  | nil => exact le_refl _
  | cons first rest ih => exact le_trans (write_keeps_newer held first).1 (ih (write held first))

theorem settle_above_writes (held : Stamp × Value) (writes : List (Stamp × Value))
    (entry : Stamp × Value) (member : entry ∈ writes) :
    entry.1 ≤ (settle held writes).1 := by
  induction writes generalizing held with
  | nil => simp at member
  | cons first rest ih =>
    rcases List.mem_cons.mp member with same | later
    · subst entry
      exact le_trans (write_keeps_newer held first).2 (settle_above_held (write held first) rest)
    · exact ih (write held first) later

theorem settle_source (held : Stamp × Value) (writes : List (Stamp × Value)) :
    settle held writes = held ∨ settle held writes ∈ writes := by
  induction writes generalizing held with
  | nil => exact Or.inl rfl
  | cons first rest ih =>
    rcases ih (write held first) with stayed | later
    · by_cases newer : held.1 < first.1
      · refine Or.inr (List.mem_cons.mpr (Or.inl ?_))
        simpa [settle, write, newer] using stayed
      · refine Or.inl ?_
        simpa [settle, write, newer] using stayed
    · exact Or.inr (List.mem_cons_of_mem first later)

def Distinct (writes : List (Stamp × Value)) : Prop :=
  ∀ left ∈ writes, ∀ right ∈ writes, left.1 = right.1 → left = right

theorem settle_newest (held : Stamp × Value) (writes : List (Stamp × Value))
    (distinct : Distinct writes) (top : Stamp × Value) (member : top ∈ writes)
    (newest : ∀ entry ∈ writes, entry.1 ≤ top.1) (above : held.1 < top.1) :
    settle held writes = top := by
  have reached := settle_above_writes held writes top member
  rcases settle_source held writes with stayed | found
  · rw [stayed] at reached
    exact absurd above (not_lt_of_ge reached)
  · exact distinct _ found top member (le_antisymm (newest _ found) reached)

theorem settle_perm (held : Stamp × Value) (writes others : List (Stamp × Value))
    (distinct : Distinct writes) (order : others.Perm writes)
    (above : ∀ entry ∈ writes, held.1 < entry.1) : settle held others = settle held writes := by
  have reaches := settle_above_writes held writes
  rcases settle_source held writes with stayed | found
  · have empty : writes = [] := by
      rw [List.eq_nil_iff_forall_not_mem]
      intro entry member
      have bound := reaches entry member
      rw [stayed] at bound
      exact absurd (above entry member) (not_lt_of_ge bound)
    subst writes
    rw [List.Perm.eq_nil order]
  · apply settle_newest held others
    · intro left inLeft right inRight
      exact distinct left (order.subset inLeft) right (order.subset inRight)
    · exact order.symm.subset found
    · intro entry member
      exact reaches entry (order.subset member)
    · exact above _ found

end Serf.Library.LastWriter
