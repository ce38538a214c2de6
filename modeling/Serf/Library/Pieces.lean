import Mathlib.Algebra.BigOperators.Group.List.Basic
import Mathlib.Algebra.Order.Ring.Nat
import Serf.Library.Framing

/-!
What a writer of several pieces does to a slice of any length. A piece is a tag byte and
what stands behind it. A length-delimited piece is refused as too large if its content is,
as soon as there is room for its tag byte and whatever room is left behind that. So the
slice decides which comes first: its end, or a piece that is too large.
-/

namespace Serf.Library.Encoding

structure Piece where
  size : Nat
  content : Nat
  inside : content < size

theorem Piece.plain_inside (length : Nat) : 0 < 1 + length := by
  omega

/-- A tag byte and as many bytes. -/
def Piece.plain (length : Nat) : Piece :=
  ⟨1 + length, 0, plain_inside length⟩

def totalSize (pieces : List Piece) : Nat := (pieces.map Piece.size).sum

theorem totalSize_nil : totalSize [] = 0 := rfl

theorem totalSize_cons (piece : Piece) (pieces : List Piece) :
    totalSize (piece :: pieces) = piece.size + totalSize pieces :=
  List.sum_cons

theorem totalSize_append (pieces more : List Piece) :
    totalSize (pieces ++ more) = totalSize pieces + totalSize more := by
  rw [totalSize, List.map_append, List.sum_append, totalSize, totalSize]

theorem totalSize_pos {pieces : List Piece} (some : pieces ≠ []) : 0 < totalSize pieces := by
  cases pieces with
  | nil => exact absurd rfl some
  | cons piece rest =>
    have inside := piece.inside
    rw [totalSize_cons]
    omega

inductive Verdict where
  | filled (left : Nat)
  | short
  | refused

def verdict : List Piece → (room : Nat) → Verdict
  | [], room => .filled room
  | piece :: rest, room =>
    if room = 0 then .short
    else if maxLen < piece.content then .refused
    else if room < piece.size then .short
    else verdict rest (room - piece.size)

def Verdict.andThen (first : Verdict) (next : Nat → Verdict) : Verdict :=
  match first with
  | .filled left => next left
  | .short => .short
  | .refused => .refused

theorem verdict_append (pieces more : List Piece) (room : Nat) :
    verdict (pieces ++ more) room = (verdict pieces room).andThen (verdict more) := by
  induction pieces generalizing room with
  | nil => rfl
  | cons piece rest ih =>
    simp only [List.cons_append, verdict, ih]
    split_ifs <;> rfl

theorem verdict_filled {pieces : List Piece} {room left : Nat}
    (filled : verdict pieces room = .filled left) : room = totalSize pieces + left := by
  induction pieces generalizing room with
  | nil =>
    cases filled
    rw [totalSize_nil, Nat.zero_add]
  | cons piece rest ih =>
    simp only [verdict] at filled
    split_ifs at filled
    have later := ih filled
    rw [totalSize_cons]
    omega

theorem verdict_short {pieces : List Piece} {room : Nat} (short : verdict pieces room = .short) :
    room < totalSize pieces := by
  induction pieces generalizing room with
  | nil => cases short
  | cons piece rest ih =>
    have inside := piece.inside
    rw [totalSize_cons]
    simp only [verdict] at short
    split_ifs at short
    · omega
    · omega
    · have later := ih short
      omega

theorem refused_iff (pieces : List Piece) (room : Nat) :
    verdict pieces room = .refused ↔ ∃ before piece behind,
      pieces = before ++ piece :: behind ∧ maxLen < piece.content ∧ totalSize before < room := by
  induction pieces generalizing room with
  | nil => exact iff_of_false nofun (by simp)
  | cons first rest ih =>
    have inside := first.inside
    constructor
    · intro refused
      simp only [verdict] at refused
      split_ifs at refused with none large
      · exact ⟨[], first, rest, rfl, large, Nat.pos_of_ne_zero none⟩
      · obtain ⟨before, piece, behind, rfl, large, reached⟩ := (ih _).mp refused
        refine ⟨first :: before, piece, behind, rfl, large, ?_⟩
        rw [totalSize_cons]
        omega
    · rintro ⟨before, piece, behind, parts, large, reached⟩
      have some : room ≠ 0 := by omega
      simp only [verdict, if_neg some]
      cases before with
      | nil =>
        cases parts
        rw [if_pos large]
      | cons other before =>
        cases parts
        rw [totalSize_cons] at reached
        split_ifs
        · rfl
        · omega
        · exact (ih _).mpr ⟨before, piece, behind, rfl, large, by omega⟩

theorem not_refused_of_small {pieces : List Piece} (small : totalSize pieces ≤ maxLen)
    (room : Nat) :
    verdict pieces room ≠ .refused := by
  rw [Ne, refused_iff]
  rintro ⟨before, piece, behind, rfl, large, _⟩
  have inside := piece.inside
  rw [totalSize_append, totalSize_cons] at small
  omega

/-- How a writer ends: as it should; with a slice refused that it would fill to the last byte;
or out of bounds where the last byte is missing. -/
inductive Ending where
  | neat
  | hungry
  | loose
  deriving DecidableEq

namespace Writer

def Lacks (writer : Writer) (room : Nat) : Prop :=
  ∃ required remaining, writer.write room = .error (.insufficientBuffer required remaining)

def Fills (writer : Writer) (room length : Nat) : Prop :=
  ∃ bytes, writer.write room = .ok bytes ∧ bytes.length = length

def Meets (writer : Writer) (room length : Nat) (ending : Ending) : Verdict → Prop
  | .filled left => writer.Fills room length ∨ ending = .hungry ∧ left = 0 ∧ writer.Lacks room
  | .short =>
    if ending = .loose ∧ room + 1 = length then writer.write room = .error .outOfBounds
    else writer.Lacks room
  | .refused => writer.write room = .error .tooLarge

def Follows (writer : Writer) (pieces : List Piece) (ending : Ending) : Prop :=
  ∀ room, writer.Meets room (totalSize pieces) ending (verdict pieces room)

/-- What stands behind a tag byte: so many bytes, of which `content` is length-delimited. -/
def Settles (writer : Writer) (length content : Nat) (ending : Ending) : Prop :=
  ∀ room, writer.Meets room length ending
    (if maxLen < content then .refused else if room < length then .short
      else .filled (room - length))

section Parts

variable {first second writer body : Writer} {pieces more : List Piece} {ending : Ending}

theorem follows_nothing : nothing.Follows [] .neat := by
  intro room
  exact Or.inl ⟨[], rfl, rfl⟩

theorem andThen_error {room : Nat} {reason : EncodeError}
    (failed : first.write room = .error reason) :
    (first.andThen second).write room = .error reason := by
  simp only [andThen, failed]

section Behind

variable {room before after : Nat} (head : first.Fills room before)

include head

theorem andThen_fills (tail : second.Fills (room - before) after) :
    (first.andThen second).Fills room (before + after) := by
  obtain ⟨front, written, rfl⟩ := head
  obtain ⟨back, behind, rfl⟩ := tail
  refine ⟨front ++ back, ?_, List.length_append⟩
  simp only [andThen, written, behind]

theorem andThen_fails {reason : EncodeError}
    (failed : second.write (room - before) = .error reason) :
    (first.andThen second).write room = .error reason := by
  obtain ⟨front, written, rfl⟩ := head
  simp only [andThen, written, failed]

theorem andThen_lacks (lacks : second.Lacks (room - before)) :
    (first.andThen second).Lacks room := by
  obtain ⟨required, remaining, failed⟩ := lacks
  exact ⟨required, remaining, andThen_fails head failed⟩

theorem meets_behind (inside : before ≤ room) {reached : Verdict}
    (tail : second.Meets (room - before) after ending reached) :
    (first.andThen second).Meets room (before + after) ending reached := by
  cases reached with
  | refused => exact andThen_fails head tail
  | short =>
    have same : room - before + 1 = after ↔ room + 1 = before + after := by omega
    simp only [Meets, same] at tail ⊢
    split_ifs at tail ⊢
    · exact andThen_fails head tail
    · exact andThen_lacks head tail
  | filled left =>
    rcases tail with fills | ⟨hungry, none, lacks⟩
    · exact Or.inl (andThen_fills head fills)
    · exact Or.inr ⟨hungry, none, andThen_lacks head lacks⟩

end Behind

theorem meets_short {room length : Nat} (lacks : writer.Lacks room)
    (other : ending = .loose → room + 1 ≠ length) : writer.Meets room length ending .short := by
  rw [Meets, if_neg fun both => other both.1 both.2]
  exact lacks

theorem meets_congr {room length : Nat} {reached : Verdict}
    (same : first.write room = second.write room)
    (meets : second.Meets room length ending reached) :
    first.Meets room length ending reached := by
  cases reached <;> simpa only [Meets, Fills, Lacks, same] using meets

theorem follows_andThen {hunger : Ending} (tame : hunger ≠ .loose)
    (head : first.Follows pieces hunger) (tail : second.Follows more ending)
    (fed : hunger = .hungry → ending ≠ .loose ∧ (more = [] → ending = .hungry))
    (some : ending = .loose → more ≠ []) :
    (first.andThen second).Follows (pieces ++ more) ending := by
  intro room
  have before := head room
  rw [verdict_append, totalSize_append]
  cases now : verdict pieces room with
  | refused =>
    rw [now] at before
    exact andThen_error before
  | short =>
    have within := verdict_short now
    rw [now, Meets, if_neg fun both => tame both.1] at before
    obtain ⟨required, remaining, failed⟩ := before
    refine meets_short ⟨required, remaining, andThen_error failed⟩ ?_
    intro loose
    have positive := totalSize_pos (some loose)
    omega
  | filled left =>
    have counted := verdict_filled now
    rw [now] at before
    rcases before with fills | ⟨hungry, rfl, required, remaining, failed⟩
    · refine meets_behind fills (by omega) ?_
      rw [show room - totalSize pieces = left by omega]
      exact tail left
    · -- Nothing is left, so what is behind ends here or lacks room as well.
      obtain ⟨tight, last⟩ := fed hungry
      have lacks : (first.andThen second).Lacks room :=
        ⟨required, remaining, andThen_error failed⟩
      cases more with
      | nil => exact Or.inr ⟨last rfl, rfl, lacks⟩
      | cons piece rest =>
        change Meets _ _ _ _ (verdict (piece :: rest) 0)
        rw [verdict, if_pos rfl]
        exact meets_short lacks fun loose => absurd loose tight

theorem follows_cons {rest : List Writer} (head : first.Follows pieces .neat)
    (tail : (all rest).Follows more ending) (some : ending = .loose → more ≠ []) :
    (all (first :: rest)).Follows (pieces ++ more) ending :=
  follows_andThen Ending.noConfusion head tail Ending.noConfusion some

theorem all_singleton (room : Nat) : (all [writer]).write room = writer.write room := by
  cases written : writer.write room with
  | error reason => exact andThen_error written
  | ok front => simp only [all, andThen, nothing, written, List.append_nil]

theorem follows_last (follows : writer.Follows pieces ending) :
    (all [writer]).Follows pieces ending :=
  fun room => meets_congr (all_singleton room) (follows room)

theorem follows_all {writers : List Writer} {groups : List (List Piece)}
    (each : List.Forall₂ (fun writer pieces => writer.Follows pieces .neat) writers groups) :
    (all writers).Follows groups.flatten .neat := by
  induction each with
  | nil => exact follows_nothing
  | cons head _ ih => exact follows_cons head ih Ending.noConfusion

theorem follows_each {Item : Type} {items : List Item} {writer : Item → Writer}
    {piece : Item → Piece} (tame : ending ≠ .loose)
    (each : ∀ item ∈ items, (writer item).Follows [piece item] ending) :
    (all (items.map writer)).Follows (items.map piece) ending := by
  induction items with
  | nil =>
    intro room
    exact Or.inl ⟨[], rfl, rfl⟩
  | cons item rest ih =>
    refine follows_andThen tame (each item (List.mem_cons_self ..))
      (ih fun other inside => each other (List.mem_cons_of_mem item inside)) ?_ ?_
    · intro hungry
      exact ⟨tame, fun _ => hungry⟩
    · intro loose
      exact absurd loose tame

theorem follows_onlyIf {present : Bool} (follows : writer.Follows pieces .neat) :
    (onlyIf present writer).Follows (if present then pieces else []) .neat := by
  cases present with
  | false => exact follows_nothing
  | true => exact follows

theorem follows_optional {Item : Type} {writer : Item → Writer} {piece : Item → Piece}
    (held : Option Item) (follows : ∀ item, (writer item).Follows [piece item] .neat) :
    (optional writer held).Follows (held.toList.map piece) .neat := by
  cases held with
  | none => exact follows_nothing
  | some item => exact follows item

theorem meets_mapErr {change : EncodeError → EncodeError} {room length : Nat} {reached : Verdict}
    (lacks : ∀ reason, reason.Insufficient → (change reason).Insufficient)
    (large : change .tooLarge = .tooLarge) (out : change .outOfBounds = .outOfBounds)
    (meets : writer.Meets room length ending reached) :
    (mapErr change writer).Meets room length ending reached := by
  have error : ∀ reason, writer.write room = .error reason →
      (mapErr change writer).write room = .error (change reason) := by
    intro reason failed
    simp only [mapErr, failed]
  have kept : writer.Lacks room → (mapErr change writer).Lacks room := by
    rintro ⟨required, remaining, failed⟩
    obtain ⟨needed, left, equal⟩ := lacks _ ⟨required, remaining, rfl⟩
    exact ⟨needed, left, equal ▸ error _ failed⟩
  cases reached with
  | refused => exact (error _ meets).trans (congrArg _ large)
  | short =>
    rw [Meets] at meets ⊢
    split_ifs at meets ⊢
    · exact (error _ meets).trans (congrArg _ out)
    · exact kept meets
  | filled left =>
    rcases meets with ⟨bytes, written, exact⟩ | ⟨hungry, none, lacking⟩
    · refine Or.inl ⟨bytes, ?_, exact⟩
      simp only [mapErr, written]
    · exact Or.inr ⟨hungry, none, kept lacking⟩

variable {required remaining length content : Nat}

theorem follows_field {tag : UInt8} (inside : content < 1 + length)
    (loose : ending = .loose → 0 < length) (settles : body.Settles length content ending) :
    (field (.insufficientBuffer required remaining) tag body).Follows
      [⟨1 + length, content, inside⟩] ending := by
  intro room
  rw [show totalSize [⟨1 + length, content, inside⟩] = 1 + length from Nat.add_zero _]
  cases room with
  | zero =>
    refine meets_short ⟨required, remaining, rfl⟩ ?_
    intro ends
    have positive := loose ends
    omega
  | succ left =>
    have head : (byte (.insufficientBuffer required remaining) tag).Fills (left + 1) 1 :=
      ⟨[tag], rfl, rfl⟩
    refine meets_behind head (Nat.le_add_left ..) ?_
    have behind := settles left
    have same : left + 1 < 1 + length ↔ left < length := by omega
    simp only [verdict, Nat.add_sub_cancel, Nat.add_one_ne_zero, if_false, same] at behind ⊢
    rwa [show left + 1 - (1 + length) = left - length by omega]

theorem follows_checking (fills : ∀ room, 1 + length ≤ room → writer.Fills room (1 + length)) :
    (checking (fun left => if left < 1 + length then some (.insufficientBuffer required remaining)
      else none) writer).Follows [.plain length] .neat := by
  intro room
  have reached : verdict [.plain length] room =
      if room < 1 + length then .short else .filled (room - (1 + length)) := by
    by_cases none : room = 0
    · rw [verdict, if_pos none, if_pos (by omega)]
    · rw [verdict, if_neg none]
      rfl
  rw [reached, show totalSize [.plain length] = 1 + length from Nat.add_zero _]
  by_cases short : room < 1 + length
  · rw [if_pos short]
    refine meets_short ⟨required, remaining, ?_⟩ Ending.noConfusion
    simp only [checking, if_pos short]
  · rw [if_neg short]
    obtain ⟨bytes, written, exact⟩ := fills room (Nat.not_lt.mp short)
    refine Or.inl ⟨bytes, ?_, exact⟩
    simp only [checking, if_neg short, written]

theorem meets_checking (follows : writer.Follows pieces .neat) (room : Nat)
    (nonempty : pieces = [] → room ≠ 0) :
    (checking (fun left => if left < 1 then some (.insufficientBuffer required remaining)
      else none) writer).Meets room (totalSize pieces) .neat (verdict pieces room) := by
  cases room with
  | zero =>
    cases pieces with
    | nil => exact absurd rfl (nonempty rfl)
    | cons piece rest =>
      rw [verdict, if_pos rfl]
      exact meets_short ⟨required, remaining, rfl⟩ Ending.noConfusion
  | succ left => exact meets_congr rfl (follows (left + 1))

theorem hungry_checking (follows : writer.Follows pieces .neat) :
    (checking (fun left => if left < 1 then some (.insufficientBuffer required remaining)
      else none) writer).Follows pieces .hungry := by
  intro room
  by_cases none : pieces = [] ∧ room = 0
  · obtain ⟨rfl, rfl⟩ := none
    exact Or.inr ⟨rfl, rfl, required, remaining, rfl⟩
  · have neat := @meets_checking _ _ required remaining follows room fun empty zero =>
      none ⟨empty, zero⟩
    revert neat
    cases verdict pieces room with
    | refused => exact id
    | short => exact fun lacks => meets_short (by simpa [Meets] using lacks) Ending.noConfusion
    | filled left => exact fun fills => Or.inl (by simpa [Meets] using fills)

theorem settles_of_follows (follows : writer.Follows pieces ending)
    (small : totalSize pieces ≤ maxLen) : writer.Settles (totalSize pieces) 0 ending := by
  intro room
  have now := follows room
  rw [if_neg (Nat.not_lt_zero _)]
  cases reached : verdict pieces room with
  | refused => exact absurd reached (not_refused_of_small small room)
  | short =>
    rw [reached] at now
    rw [if_pos (verdict_short reached)]
    exact now
  | filled left =>
    have counted := verdict_filled reached
    rw [reached] at now
    rw [if_neg (by omega), show room - totalSize pieces = left by omega]
    exact now

theorem settles_of_fits (fits : writer.Fits length 0) (orderly : writer.Orderly) :
    writer.Settles length 0 .neat := by
  intro room
  rw [if_neg (Nat.not_lt_zero _)]
  split_ifs with short
  · exact meets_short (refuses fits orderly room short) nofun
  · obtain ⟨bytes, written⟩ := fits.writes room (by omega)
    exact Or.inl ⟨bytes, written, fits.exact bytes ⟨room, written⟩⟩

theorem settles_andThen {before after : Nat} (head : first.Settles before 0 .neat)
    (tail : second.Settles after 0 ending) (loose : ending = .loose → 0 < after) :
    (first.andThen second).Settles (before + after) 0 ending := by
  intro room
  have front := head room
  rw [if_neg (Nat.not_lt_zero _)] at front ⊢
  by_cases short : room < before
  · rw [if_pos short, Meets, if_neg (by rintro ⟨⟨⟩, _⟩)] at front
    obtain ⟨required, remaining, failed⟩ := front
    rw [if_pos (by omega)]
    refine meets_short ⟨required, remaining, andThen_error failed⟩ ?_
    intro ends
    have positive := loose ends
    omega
  · rw [if_neg short] at front
    obtain fills | ⟨⟨⟩, _⟩ := front
    refine meets_behind fills (Nat.not_lt.mp short) ?_
    have back := tail (room - before)
    have same : room - before < after ↔ room < before + after := by omega
    rw [if_neg (Nat.not_lt_zero _)] at back
    simp only [same, Nat.sub_sub] at back
    exact back

end Parts

end Writer

section Frames

variable {Error Value : Type} (framing : Framing Error) (codec : Codec (Fault Error) Value)
  (value : Value)

def announcedLen : Nat := if codec.wireType = .lengthDelimited then codec.encodedLen value else 0

theorem announcedLen_inside : announcedLen codec value < 1 + framing.framedLen codec value := by
  rw [announcedLen, framing.framedLen_eq]
  split_ifs
  · rw [delimitedLen]
    omega
  · omega

def Piece.framed : Piece :=
  ⟨1 + framing.framedLen codec value, announcedLen codec value,
    announcedLen_inside framing codec value⟩

variable {framing codec value} {ending : Ending}

theorem settles_frame (lengths : ∀ length,
      (Writer.ofCodec framing.u32 length).Settles (framing.u32.encodedLen length) 0 .neat)
    (body : announcedLen codec value ≤ maxLen →
      (Writer.ofCodec codec value).Settles (codec.encodedLen value) 0 ending)
    (loose : ending = .loose → 0 < codec.encodedLen value) :
    (framing.framed codec value).Settles (framing.framedLen codec value) (announcedLen codec value)
      ending := by
  by_cases delimits : codec.wireType = .lengthDelimited
  · have same : announcedLen codec value = codec.encodedLen value := if_pos delimits
    rw [framing.framed_delimited delimits, framing.framedLen_delimited delimits, same]
    rw [same] at body
    intro room
    by_cases large : maxLen < codec.encodedLen value
    · rw [if_pos large]
      simp only [Writer.Meets, delimited, Writer.checking, if_pos large]
    · have both := Writer.settles_andThen (lengths (UInt32.ofNat (codec.encodedLen value)))
        (body (Nat.not_lt.mp large)) loose room
      rw [if_neg (Nat.not_lt_zero _)] at both
      rw [if_neg large]
      refine Writer.meets_congr ?_ both
      simp only [delimited, Writer.checking, if_neg large]
  · have same : announcedLen codec value = 0 := if_neg delimits
    rw [framing.framed_plain delimits, framing.framedLen_plain delimits, same]
    exact body (same ▸ Nat.zero_le _)

theorem settles_update {writer : Writer} {length content : Nat} (required remaining : Nat)
    (settles : writer.Settles length content ending) :
    (writer.mapErr (framing.update required remaining)).Settles length content ending :=
  fun room => Writer.meets_mapErr (framing.update_insufficient required remaining)
    (framing.update_other required remaining _ nofun)
    (framing.update_other required remaining _ nofun) (settles room)

theorem follows_update {writer : Writer} {pieces : List Piece} (required remaining : Nat)
    (follows : writer.Follows pieces ending) :
    (writer.mapErr (framing.update required remaining)).Follows pieces ending :=
  fun room => Writer.meets_mapErr (framing.update_insufficient required remaining)
    (framing.update_other required remaining _ nofun)
    (framing.update_other required remaining _ nofun) (follows room)

theorem follows_ofWriter {encodedLen : Value → Nat} {writer : Value → Nat → Writer}
    {decode : Read Error (Except (Fault Error) Value)} {pieces : List Piece}
    (follows : ∀ room, (writer value room).Follows pieces ending) :
    (Writer.ofCodec (ofWriter encodedLen writer decode) value).Follows pieces ending :=
  fun room => Writer.meets_congr rfl (follows room room)

end Frames

end Serf.Library.Encoding
