import Mathlib.Data.List.DropRight
import Mathlib.Data.List.Rotate

/-!
Keeping the last items of a sequence. A queue drops its first item when it holds too
many; a ring overwrites its slots in turn. Read from the slot that is overwritten next, a
ring is `List.rtake` of everything that was ever put in. The median is the middle item of
a sorted copy.
-/

namespace Serf.Library.Recent

variable {Item : Type}

section Queue

def push (size : Nat) (kept : List Item) (item : Item) : List Item :=
  let grown := kept ++ [item]
  if size < grown.length then grown.tail else grown

theorem push_ne_nil (size : Nat) (kept : List Item) (item : Item) (positive : 0 < size) :
    push size kept item ≠ [] := by
  apply List.ne_nil_of_length_pos
  rw [push]
  split
  · rw [List.length_tail]
    omega
  · simp

theorem rtake_of_length_le (items : List Item) (size : Nat) (short : items.length ≤ size) :
    items.rtake size = items := by
  rw [List.rtake, Nat.sub_eq_zero_of_le short, List.drop_zero]

theorem rtake_concat_full (items : List Item) (size : Nat) (item : Item) (positive : 0 < size)
    (full : size ≤ items.length) :
    (items ++ [item]).rtake size = (items.rtake size).tail ++ [item] := by
  have inside : items.length + 1 - size ≤ items.length := by omega
  have next : items.length + 1 - size = items.length - size + 1 := by omega
  rw [List.rtake, List.rtake, List.length_append, List.length_singleton,
    List.drop_append_of_le_length inside, List.tail_drop, next]

theorem mem_rtake (before after : List Item) (item : Item) (size : Nat)
    (near : after.length < size) : item ∈ (before ++ item :: after).rtake size := by
  have early : (before ++ item :: after).length - size ≤ before.length := by
    simp only [List.length_append, List.length_cons]
    omega
  rw [List.rtake, List.drop_append_of_le_length early]
  simp

end Queue

section Ring

theorem rotate_overwrite (slots : List Item) (next : Nat) (item : Item)
    (inside : next < slots.length) :
    (slots.set next item).rotate ((next + 1) % slots.length) =
      (slots.rotate next).tail ++ [item] := by
  have length : (slots.set next item).length = slots.length := List.length_set
  have written : (slots.set next item).take (next + 1) = slots.take next ++ [item] := by
    rw [List.take_add_one, List.take_set_of_le le_rfl, List.getElem?_set_self inside]
    rfl
  have rest : (slots.set next item).drop (next + 1) = slots.drop (next + 1) :=
    List.drop_set_of_lt (Nat.lt_succ_self next)
  have behind : slots.drop next ≠ [] := by
    rw [Ne, List.drop_eq_nil_iff]
    omega
  rw [← length, List.rotate_mod, List.rotate_eq_drop_append_take (by omega), written, rest,
    List.rotate_eq_drop_append_take inside.le, List.tail_append_of_ne_nil behind, List.tail_drop,
    List.append_assoc]

/-- The slots of a ring, read from the next one, are the last items put in; before there
are enough of them, what the ring was filled with stands in front. -/
structure Wraps (filler : Item) (slots : List Item) (next : Nat) (items : List Item) : Prop where
  inside : next < slots.length
  latest : slots.rotate next =
    (List.replicate slots.length filler ++ items).rtake slots.length

theorem wraps_filled (filler : Item) (size : Nat) (positive : 0 < size) :
    Wraps filler (List.replicate size filler) 0 [] where
  inside := by simpa using positive
  latest := by
    rw [List.rotate_zero, List.append_nil, List.length_replicate, rtake_of_length_le _ _ (by simp)]

theorem Wraps.overwrite {filler : Item} {slots : List Item} {next : Nat} {items : List Item}
    (wraps : Wraps filler slots next items) (item : Item) :
    Wraps filler (slots.set next item) ((next + 1) % slots.length) (items ++ [item]) where
  inside := by
    rw [List.length_set]
    exact Nat.mod_lt _ (by have := wraps.inside; omega)
  latest := by
    have positive : 0 < slots.length := by
      have := wraps.inside
      omega
    rw [rotate_overwrite slots next item wraps.inside, wraps.latest, List.length_set,
      ← List.append_assoc, rtake_concat_full _ _ item positive (by simp)]

theorem Wraps.mem {filler : Item} {slots before after : List Item} {next : Nat} {item : Item}
    (wraps : Wraps filler slots next (before ++ item :: after))
    (near : after.length < slots.length) : item ∈ slots := by
  rw [← List.mem_rotate (n := next), wraps.latest, ← List.append_assoc]
  exact mem_rtake _ after item _ near

end Ring

section Median

variable (le : Item → Item → Bool)

def median (items : List Item) : Option Item := (items.mergeSort le)[items.length / 2]?

theorem median_defined (items : List Item) (nonempty : items ≠ []) :
    ∃ middle, median le items = some middle := by
  have positive : 0 < items.length := List.length_pos_of_ne_nil nonempty
  have inside : items.length / 2 < (items.mergeSort le).length := by
    rw [List.length_mergeSort]
    omega
  exact ⟨_, List.getElem?_eq_getElem inside⟩

end Median

end Serf.Library.Recent
