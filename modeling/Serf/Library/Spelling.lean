import Mathlib.Data.List.Forall2
import Serf.Library.Writer

/-!
What an encoder writes as a list of fields, each a tag byte and what stands behind it. A
writer spells a list of parts if everything it makes consists of these parts, one behind
the other.
-/

namespace Serf.Library.Encoding

structure Part where
  tag : UInt8
  content : Writer

/-- The fields, each a tag byte and what stands behind it, one behind the other. -/
def spelled (fields : List (UInt8 × Bytes)) : Bytes :=
  fields.flatMap fun field => field.1 :: field.2

theorem spelled_append (fields more : List (UInt8 × Bytes)) :
    spelled (fields ++ more) = spelled fields ++ spelled more :=
  List.flatMap_append ..

theorem spelled_eq_nil_iff (fields : List (UInt8 × Bytes)) : spelled fields = [] ↔ fields = [] := by
  cases fields with
  | nil => exact iff_of_true rfl rfl
  | cons field more =>
    exact iff_of_false (List.cons_ne_nil field.1 _) (List.cons_ne_nil field more)

/-- The field is what was written for the part. -/
def Wrote (part : Part) (field : UInt8 × Bytes) : Prop :=
  field.1 = part.tag ∧ part.content.Makes field.2

def Consists (parts : List Part) (bytes : Bytes) : Prop :=
  ∃ fields, List.Forall₂ Wrote parts fields ∧ spelled fields = bytes

theorem consists_nil {bytes : Bytes} (consists : Consists [] bytes) : bytes = [] := by
  obtain ⟨fields, ⟨⟩, rfl⟩ := consists
  rfl

theorem consists_cons {part : Part} {parts : List Part} {bytes : Bytes}
    (consists : Consists (part :: parts) bytes) :
    ∃ content behind, bytes = part.tag :: content ++ behind ∧ part.content.Makes content ∧
      Consists parts behind := by
  obtain ⟨fields, wrote, rfl⟩ := consists
  obtain _ | ⟨⟨same, made⟩, later⟩ := wrote
  rename_i field rest
  exact ⟨field.2, spelled rest, by rw [← same]; rfl, made, rest, later, rfl⟩

theorem consists_append {first second : List Part} {bytes more : Bytes}
    (before : Consists first bytes) (after : Consists second more) :
    Consists (first ++ second) (bytes ++ more) := by
  obtain ⟨fields, wrote, rfl⟩ := before
  obtain ⟨others, later, rfl⟩ := after
  exact ⟨fields ++ others, List.rel_append wrote later, spelled_append fields others⟩

namespace Writer

def Spells (writer : Writer) (parts : List Part) : Prop :=
  ∀ bytes, writer.Makes bytes → Consists parts bytes

theorem spells_nothing : nothing.Spells [] := by
  intro bytes made
  rw [makes_nothing bytes made]
  exact ⟨[], .nil, rfl⟩

theorem spells_content (full : EncodeError) (tag : UInt8) {body content : Writer}
    (same : ∀ bytes, body.Makes bytes → content.Makes bytes) :
    (field full tag body).Spells [⟨tag, content⟩] := by
  intro bytes made
  obtain ⟨inner, rfl, inside⟩ := makes_field made
  exact ⟨[(tag, inner)], .cons ⟨rfl, same inner inside⟩ .nil, List.append_nil _⟩

theorem spells_field (full : EncodeError) (tag : UInt8) (body : Writer) :
    (field full tag body).Spells [⟨tag, body⟩] :=
  spells_content full tag fun _ made => made

theorem spells_updated (full : EncodeError) (tag : UInt8) (change : EncodeError → EncodeError)
    (body : Writer) : (field full tag (body.mapErr change)).Spells [⟨tag, body⟩] :=
  spells_content full tag fun _ made => makes_mapErr made

theorem spells_byte (full other own : EncodeError) (tag value : UInt8) :
    (field full tag (byte other value)).Spells [⟨tag, byte own value⟩] := by
  refine spells_content full tag fun bytes made => ?_
  rw [makes_byte other value bytes made]
  exact ⟨1, rfl⟩

theorem spells_mapErr {change : EncodeError → EncodeError} {writer : Writer} {parts : List Part}
    (spells : writer.Spells parts) : (writer.mapErr change).Spells parts :=
  fun bytes made => spells bytes (makes_mapErr made)

theorem spells_checking {check : Nat → Option EncodeError} {writer : Writer} {parts : List Part}
    (spells : writer.Spells parts) : (checking check writer).Spells parts := by
  intro bytes made
  obtain ⟨room, _, written⟩ := makes_checking check writer bytes made
  exact spells bytes ⟨room, written⟩

theorem spells_onlyIf {present : Bool} {writer : Writer} {parts : List Part}
    (spells : writer.Spells parts) :
    (onlyIf present writer).Spells (if present then parts else []) := by
  cases present with
  | false => exact spells_nothing
  | true => exact spells

theorem spells_optional {Item : Type} {writer : Item → Writer} {part : Item → Part}
    (held : Option Item) (spells : ∀ item, (writer item).Spells [part item]) :
    (optional writer held).Spells (held.toList.map part) := by
  cases held with
  | none => exact spells_nothing
  | some item => exact spells item

theorem spells_andThen {first second : Writer} {before after : List Part}
    (head : first.Spells before) (tail : second.Spells after) :
    (first.andThen second).Spells (before ++ after) := by
  intro bytes made
  obtain ⟨front, back, rfl, madeFront, madeBack⟩ := makes_andThen first second bytes made
  exact consists_append (head front madeFront) (tail back madeBack)

theorem spells_all {writers : List Writer} {groups : List (List Part)}
    (spells : List.Forall₂ Spells writers groups) : (all writers).Spells groups.flatten := by
  induction spells with
  | nil => exact spells_nothing
  | cons head _ ih => exact spells_andThen head ih

theorem spells_group {writer : Writer} {group : List Part} (spells : writer.Spells group) :
    writer.Spells [group].flatten := by
  rwa [List.flatten_singleton]

theorem spells_each {Item : Type} (items : List Item) {writer : Item → Writer}
    {part : Item → Part} (spells : ∀ item, (writer item).Spells [part item]) :
    (all (items.map writer)).Spells (items.map part) := by
  induction items with
  | nil => exact spells_nothing
  | cons item rest ih => exact spells_andThen (spells item) ih

end Writer

end Serf.Library.Encoding
