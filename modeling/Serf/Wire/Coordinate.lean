import Serf.Wire.Member
import Serf.Wire.Reference

/-!
A coordinate that was encoded is decoded as it was. Its portion is a repeated field of
numbers, which are not length-delimited: the decoder passes over them by their wire type
and reads them in a second go.
-/

namespace Serf.Wire

open Library.Collections Library.Encoding Library.Fields Library.LittleEndian

variable {Id Address : Type} {proto : Proto Id Address}

variable (proto) in
/-- Numbers round-trip, and `skip` takes a number as one field. -/
structure CoordinateLaws : Prop where
  f64 : Plain proto.f64 fun _ => True
  skips : ∀ value content more, (Writer.ofCodec proto.f64 value).Makes content →
    proto.skip "Coordinate" (merge .fixed64 1 :: (content ++ more)) = .ok (1 + content.length)

theorem coordinate_encodes (numbers : CoordinateLaws proto) :
    Encodes (coordinate proto) (fun _ => True) 0 := by
  refine encodes_ofWriter fun value _ small room => ?_
  simp only [coordinateLen, List.sum_cons, List.sum_nil] at small
  have short := items_small proto proto.f64 value.portion (by omega)
  have error := numbers.f64.fits value.error trivial (by omega)
  have adjustment := numbers.f64.fits value.adjustment trivial (by omega)
  have height := numbers.f64.fits value.height trivial (by omega)
  -- A number is counted as if a length might stand before it, and is written without.
  have plain : proto.framing.framedLen proto.f64 = proto.f64.encodedLen :=
    funext (proto.framing.framedLen_plain numbers.f64.plain)
  unfold coordinateLen
  rw [plain] at short ⊢
  exact Writer.fits_all
    (.cons (Writer.fits_each _ _ _ 0 fun x inside => Writer.fits_field (Writer.fits_mapErr
      (numbers.f64.fits x trivial (short x inside))))
    (.cons (Writer.fits_field error)
    (.cons (Writer.fits_field adjustment)
    (.cons (Writer.fits_field height) .nil))))

theorem coordinate_lawful (laws : FrameLaws proto) (numbers : CoordinateLaws proto) :
    Lawful (coordinate proto) (fun _ => True) Eq 0 := by
  refine lawful_ofWriter (coordinate_encodes numbers) ?_
  intro value _ small room bytes made
  simp only [coordinateLen, List.sum_cons, List.sum_nil] at small
  have short := items_small proto proto.f64 value.portion (by omega)
  have plain : ∀ x, proto.framing.framed proto.f64 x = .ofCodec proto.f64 x :=
    proto.framing.framed_plain numbers.f64.plain
  have so := stands_written (coordinateArms proto) {} (coordinate_spells proto value room) made
  unfold coordinateParts at so
  simp only [← plain] at so
  obtain ⟨range, found, matched, held, so⟩ := laws.collects numbers.f64.toLawful value.portion so
    rfl
    (fun x _ content made more => by
      rw [plain] at made
      exact numbers.skips x content more made)
    (fun _ _ => trivial) short rfl
  simp only [plain] at so
  rw [List.forall₂_eq_eq_eq] at matched
  subst matched
  obtain ⟨_, rfl, so⟩ := so.field (once_stores rfl rfl)
    (plain_inverts numbers.f64 value.error trivial (by omega))
  obtain ⟨_, rfl, so⟩ := so.field (once_stores rfl rfl)
    (plain_inverts numbers.f64 value.adjustment trivial (by omega))
  obtain ⟨_, rfl, so⟩ := so.field (once_stores rfl rfl)
    (plain_inverts numbers.f64 value.height trivial (by omega))
  refine ⟨value, rfl, ?_⟩
  rw [coordinateDecode, so.scans]
  simp [CoordinateFields.portionSlot, CoordinateFields.errorSlot, CoordinateFields.adjustmentSlot,
    CoordinateFields.heightSlot, need, bind, Except.bind, pure, Except.pure, held]

theorem reference_coordinateLaws : CoordinateLaws reference where
  f64 :=
    { copied_lawful fun value _ more _ => by
        have enough : ¬ (toLeBytes 8 value.toNat ++ more).length < 8 := by
          rw [List.length_append, length_toLeBytes]
          omega
        have fits : value.toNat < 256 ^ 8 := value.toNat_lt
        rw [if_neg enough, List.take_left' (length_toLeBytes 8 value.toNat),
          fromLeBytes_toLeBytes, Nat.mod_eq_of_lt fits, UInt64.ofNat_toNat,
          length_toLeBytes] with
      plain := nofun }
  skips value content more made := by
    rw [copied_makes value content made]
    exact skipField_extents .fixed64 1 _ more (by decide)
      (spans_fixed64_iff.mpr (length_toLeBytes 8 value.toNat))

end Serf.Wire
