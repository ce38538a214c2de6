import Mathlib.Data.Nat.ModEq
import Mathlib.Tactic.Ring

/-!
Numbers as bytes, least significant first: in a fixed width, or in groups of
seven bits of which all but the last are marked. A larger number is not shorter, in
groups or in decimal digits.
-/

namespace Serf.Library.LittleEndian

/-- The `width` low bytes of a number. -/
def toLeBytes : (width : Nat) → Nat → List UInt8
  | 0, _ => []
  | width + 1, n => UInt8.ofNat n :: toLeBytes width (n / 256)

def fromLeBytes : List UInt8 → Nat
  | [] => 0
  | byte :: rest => byte.toNat + 256 * fromLeBytes rest

@[simp] theorem length_toLeBytes (width n : Nat) : (toLeBytes width n).length = width := by
  induction width generalizing n with
  | zero => rfl
  | succ width ih => simp [toLeBytes, ih]

theorem fromLeBytes_toLeBytes (width n : Nat) :
    fromLeBytes (toLeBytes width n) = n % 256 ^ width := by
  induction width generalizing n with
  | zero => simp [toLeBytes, fromLeBytes, Nat.mod_one]
  | succ width ih =>
    have low : (UInt8.ofNat n).toNat = n % 256 := by simp
    rw [toLeBytes, fromLeBytes, ih, low, Nat.pow_succ', Nat.mod_mul]

/-- At most `more + 1` groups of a number. -/
def toVarint : (more : Nat) → Nat → List UInt8
  | 0, n => [UInt8.ofNat n]
  | more + 1, n =>
    if n < 128 then [UInt8.ofNat n] else UInt8.ofNat (n % 128 + 128) :: toVarint more (n / 128)

def fromVarint : (more : Nat) → List UInt8 → Option (Nat × Nat)
  | _, [] => none
  | 0, byte :: _ => if byte.toNat < 128 then some (1, byte.toNat) else none
  | more + 1, byte :: rest =>
    if byte.toNat < 128 then
      some (1, byte.toNat)
    else
      (fromVarint more rest).map fun (read, high) => (1 + read, byte.toNat - 128 + 128 * high)

variable (more n : Nat)

theorem length_toVarint : (toVarint more n).length ≤ more + 1 := by
  induction more generalizing n with
  | zero => exact le_rfl
  | succ more ih =>
    have rest := ih (n / 128)
    unfold toVarint
    split
    · simp
    · rw [List.length_cons]
      omega

theorem length_toVarint_mono {low high : Nat} (less : low ≤ high) :
    (toVarint more low).length ≤ (toVarint more high).length := by
  induction more generalizing low high with
  | zero => exact le_rfl
  | succ more ih =>
    unfold toVarint
    by_cases one : low < 128
    · rw [if_pos one]
      split <;> simp
    · rw [if_neg one, if_neg (by omega), List.length_cons, List.length_cons]
      exact Nat.succ_le_succ (ih (Nat.div_le_div_right less))

theorem fromVarint_toVarint (fits : n < 128 ^ (more + 1)) (after : List UInt8) :
    fromVarint more (toVarint more n ++ after) = some ((toVarint more n).length, n) := by
  induction more generalizing n with
  | zero =>
    have low : (UInt8.ofNat n).toNat = n := by
      rw [UInt8.toNat_ofNat']
      omega
    simp only [toVarint, List.singleton_append, fromVarint, low, if_pos (show n < 128 by omega),
      List.length_singleton]
  | succ more ih =>
    rw [toVarint]
    split
    · rename_i small
      have low : (UInt8.ofNat n).toNat = n := by
        rw [UInt8.toNat_ofNat']
        omega
      simp only [List.singleton_append, fromVarint, low, if_pos small, List.length_singleton]
    · -- The marked group is the remainder, the other groups are the quotient.
      have low : (UInt8.ofNat (n % 128 + 128)).toNat = n % 128 + 128 := by
        rw [UInt8.toNat_ofNat']
        omega
      have rest := ih (n / 128) (by
        rw [Nat.pow_succ] at fits
        exact Nat.div_lt_of_lt_mul (by omega))
      simp only [List.cons_append, fromVarint, low, rest, List.length_cons,
        if_neg (show ¬ n % 128 + 128 < 128 by omega), Option.map_some]
      congr 2
      · omega
      · omega

theorem fromVarint_cons_iff (byte : UInt8) (rest : List UInt8) (read n : Nat) :
    fromVarint more (byte :: rest) = some (read, n) ↔
      byte.toNat < 128 ∧ read = 1 ∧ n = byte.toNat ∨
      ¬ byte.toNat < 128 ∧ ∃ fewer inner high, more = fewer + 1 ∧
        fromVarint fewer rest = some (inner, high) ∧ read = 1 + inner ∧
        n = byte.toNat - 128 + 128 * high := by
  cases more with
  | zero =>
    by_cases last : byte.toNat < 128
    · simp [fromVarint, last, eq_comm]
    · simp [fromVarint, last]
  | succ more =>
    by_cases last : byte.toNat < 128
    · simp [fromVarint, last, eq_comm]
    · simp [fromVarint, last, eq_comm]

theorem fromVarint_read (bytes : List UInt8) (read n : Nat)
    (now : fromVarint more bytes = some (read, n)) : 1 ≤ read ∧ read ≤ bytes.length := by
  induction bytes generalizing more read n with
  | nil => simp [fromVarint] at now
  | cons byte rest ih =>
    rcases (fromVarint_cons_iff more byte rest read n).mp now with
      ⟨_, rfl, _⟩ | ⟨_, fewer, inner, high, rfl, later, rfl, rfl⟩
    · simp
    · have inside := ih fewer inner high later
      rw [List.length_cons]
      omega

theorem fromVarint_append (extra : Nat) (bytes after : List UInt8) (read n : Nat)
    (now : fromVarint more bytes = some (read, n)) :
    fromVarint (more + extra) (bytes ++ after) = some (read, n) := by
  induction bytes generalizing more read n with
  | nil => simp [fromVarint] at now
  | cons byte rest ih =>
    rw [List.cons_append, fromVarint_cons_iff]
    rcases (fromVarint_cons_iff more byte rest read n).mp now with
      ended | ⟨marked, fewer, inner, high, rfl, later, total⟩
    · exact Or.inl ended
    · exact Or.inr ⟨marked, fewer + extra, inner, high, Nat.succ_add fewer extra,
        ih fewer inner high later, total⟩

theorem utf8ByteSize_digits (digits : List Char) (all : ∀ digit ∈ digits, digit.isDigit = true) :
    (String.ofList digits).utf8ByteSize = digits.length := by
  induction digits with
  | nil => rfl
  | cons digit rest ih =>
    obtain ⟨first, others⟩ := List.forall_mem_cons.mp all
    have one : digit.utf8Size = 1 := by
      simp only [Char.isDigit, ge_iff_le, Bool.and_eq_true, decide_eq_true_eq] at first
      exact Char.utf8Size_eq_one_iff.mpr (UInt32.le_trans first.2 (by decide))
    rw [String.ofList_cons, String.utf8ByteSize_append, String.utf8ByteSize_singleton, one,
      ih others, List.length_cons, Nat.add_comm]

theorem utf8ByteSize_numeral : (toString n).utf8ByteSize = (Nat.toDigits 10 n).length := by
  rw [Nat.toString_eq_ofList_toDigits]
  exact utf8ByteSize_digits _ fun _ inside =>
    Nat.isDigit_of_mem_toDigits (by decide) (by decide) inside

theorem utf8ByteSize_numeral_mono {low high : Nat} (less : low ≤ high) :
    (toString low).utf8ByteSize ≤ (toString high).utf8ByteSize := by
  have below := (Nat.length_toDigits_le_iff (by decide) Nat.length_toDigits_pos).mp
    (le_refl (Nat.toDigits 10 high).length)
  rw [utf8ByteSize_numeral, utf8ByteSize_numeral,
    Nat.length_toDigits_le_iff (by decide) Nat.length_toDigits_pos]
  exact lt_of_le_of_lt less below

end Serf.Library.LittleEndian
