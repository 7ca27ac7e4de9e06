import LedgerWire.Proofs.ReadingBack
import LedgerWire.Proofs.WrittenFields

/-!
# Objects inside objects

An object inside another one, at whatever depth, is written as it is on its own: no
object around it, and none inside it, has a say in the octets of its own fields.
-/

namespace LedgerWire.Object

/-- What is written inside an object: its own parts, and the parts of these. -/
inductive Inside (context : Context) (signingOnly : Bool) (outer : List (String × Json)) :
    Field × Json → Prop
  | part {part : Field × Json}
      (member : part ∈
        canonicalFields context.registry signingOnly (expanded context.addresses outer)) :
      Inside context signingOnly outer part
  | inner {part inner : Field × Json} (inside : Inside context signingOnly outer part)
      (member : inner ∈ parts context part.1.kind part.2) :
      Inside context signingOnly outer inner

variable {context : Context} {signingOnly : Bool}

/-- What is written for signing is written without it too. -/
theorem mem_parts_of_mem_canonical {entries : List (String × Json)} {part : Field × Json}
    (member : part ∈
      canonicalFields context.registry signingOnly (expanded context.addresses entries)) :
    part ∈ parts context .object (.object entries) := by
  obtain ⟨key, present, kept⟩ := mem_canonicalFields_iff.mp member
  exact mem_writtenFields_iff.mpr
    ⟨key, present, kept.known, kept.serialized, kept.nonNull, nofun⟩

theorem distinctKeys_of_inside {outer : List (String × Json)} {part : Field × Json}
    (distinct : (Json.object outer).distinctKeys = true)
    (inside : Inside context signingOnly outer part) : part.2.distinctKeys = true := by
  induction inside with
  | part member =>
      exact distinctKeys_of_mem_parts distinct (mem_parts_of_mem_canonical member)
  | inner _ member inductionHypothesis =>
      exact distinctKeys_of_mem_parts inductionHypothesis member

/-! ## One level down -/

private theorem bytes_infix_of_mem {written : List Segment} {one : Segment}
    (present : one ∈ written) : one.bytes <:+: written.flatMap Segment.bytes := by
  rw [List.flatMap_def]
  exact List.infix_of_mem_flatten (List.mem_map_of_mem present)

section Steps

variable (sound : context.registry.Sound) {part : Field × Json}
  (unsized : part.1.kind.sized = false)

include sound unsized

/-- The octets of a value without a length stand in its segment. -/
theorem own_of_segment {omitted : Bool} {one : Segment}
    (member : part.1 ∈ context.registry.fields) (named : omitted = true → part.1.name = "Account")
    (segmented : segment (fieldValueBytes context) part.1 part.2 omitted = .ok one) :
    ∃ own, fieldValueBytes context part.1 part.2 = .ok own ∧ own <:+: one.bytes := by
  obtain ⟨_, _, own, given, shown⟩ := unsized_segment sound member unsized named segmented
  refine ⟨own, (fieldValueBytes_eq _ _).trans given, ?_⟩
  have inBody : own <:+: one.body := by
    rw [shown]
    split
    · exact (List.prefix_append own [objectEnd]).isInfix
    · exact List.infix_refl own
  exact inBody.trans (List.suffix_append one.field.header one.body).isInfix

private theorem own_of_segments {entries : List (String × Json)} {written : List Segment}
    (given : segments context.registry context.addresses (fieldValueBytes context) signingOnly
      entries = .ok written)
    (member : part ∈
      canonicalFields context.registry signingOnly (expanded context.addresses entries)) :
    ∃ own, fieldValueBytes context part.1 part.2 = .ok own ∧
      own <:+: written.flatMap Segment.bytes := by
  obtain ⟨one, present, segmented⟩ :=
    Outcome.exists_of_mem_left (segments_eq_ok.mp given).2 member
  have known := mem_fields_of_mem_parts (mem_parts_of_mem_canonical member)
  obtain ⟨own, valueWritten, inOne⟩ := own_of_segment sound unsized known (by simp) segmented
  exact ⟨own, valueWritten, inOne.trans (bytes_infix_of_mem present)⟩

private theorem own_of_fieldValueBytes {field : Field} {value : Json} {bytes : Bytes}
    (given : fieldValueBytes context field value = .ok bytes)
    (member : part ∈ parts context field.kind value) :
    ∃ own, fieldValueBytes context part.1 part.2 = .ok own ∧ own <:+: bytes := by
  rw [fieldValueBytes_eq, valueBytesWith] at given
  have known := mem_fields_of_mem_parts member
  cases kind : field.kind with
  | object =>
      rw [kind] at given member
      obtain ⟨entries, written, rfl, segmented, rfl⟩ := objectBytes_eq_ok.mp given
      have item := (canonicalFields_perm _ _ _).mem_iff.mpr member
      exact own_of_segments sound unsized segmented item
  | array =>
      rw [kind] at given member
      obtain ⟨items, written, rfl, related, rfl⟩ := arrayBytes_eq_ok.mp given
      obtain ⟨one, present, _, segmented⟩ :=
        Outcome.exists_of_mem_left (forall₂_parts_of_items related) member
      obtain ⟨own, valueWritten, inOne⟩ := own_of_segment sound unsized known (by simp) segmented
      have inItems := inOne.trans (bytes_infix_of_mem present)
      exact ⟨own, valueWritten, inItems.trans (List.prefix_append _ [arrayEnd]).isInfix⟩
  | _ =>
      rw [kind] at member
      cases member

end Steps

/-! ## Any depth -/

private theorem unsized_of_mem_parts {kind : FieldKind} {value : Json} {part : Field × Json}
    (member : part ∈ parts context kind value) : kind.sized = false := by
  cases kind with
  | scalar kind =>
      cases member
  | _ =>
      rfl

variable (sound : context.registry.Sound) {outer : List (String × Json)} {bytes : Bytes}
  (encoded : encode context signingOnly (.object outer) = .ok bytes)

include sound encoded

/-- What has parts is an object or an array, so nothing on the way down is omitted. -/
theorem own_of_inside {part : Field × Json} (inside : Inside context signingOnly outer part)
    (unsized : part.1.kind.sized = false) :
    ∃ own, fieldValueBytes context part.1 part.2 = .ok own ∧ own <:+: bytes := by
  induction inside with
  | part member =>
      obtain ⟨_, written, same, given, rfl⟩ := objectBytes_eq_ok.mp encoded
      cases same
      exact own_of_segments sound unsized given member
  | inner _ member inductionHypothesis =>
      obtain ⟨around, aroundWritten, inBytes⟩ :=
        inductionHypothesis (unsized_of_mem_parts member)
      obtain ⟨own, ownWritten, inAround⟩ :=
        own_of_fieldValueBytes sound unsized aroundWritten member
      exact ⟨own, ownWritten, inAround.trans inBytes⟩

/-- The segments of an object inside are those that it has on its own. -/
theorem segments_of_inside {field : Field} {inner : List (String × Json)}
    (inside : Inside context signingOnly outer (field, .object inner))
    (isObject : field.kind = .object) :
    ∃ written, segmentsOf context false inner = .ok written ∧
      written.flatMap Segment.bytes <:+: bytes := by
  have unsized : field.kind.sized = false := by
    rw [isObject]
    rfl
  obtain ⟨own, given, inBytes⟩ := own_of_inside sound encoded inside unsized
  rw [fieldValueBytes_eq, valueBytesWith, isObject] at given
  obtain ⟨_, written, same, segmented, rfl⟩ := objectBytes_eq_ok.mp given
  cases same
  exact ⟨written, segmented, inBytes⟩

end LedgerWire.Object
