import LedgerWire.Proofs.Framing
import LedgerWire.Proofs.Parts
import Mathlib.Data.List.Sort

/-!
# What a successful encoding has written

An encoding writes one segment for each part, in ascending order of the fields.
The values inside are written in the same way, however deep they stand.
-/

namespace LedgerWire.Object

/-! ## Order of fields -/

/-- The order in which fields are written. -/
abbrev NotAbove (left right : Field × Json) : Prop := left.1.ordinal ≤ right.1.ordinal

instance : Std.Total NotAbove := ⟨fun left right => Nat.le_total left.1.ordinal right.1.ordinal⟩

instance : IsTrans (Field × Json) NotAbove := ⟨fun _ _ _ => Nat.le_trans⟩

private theorem insertField_eq (item : Field × Json) (items : List (Field × Json)) :
    insertField item items = items.orderedInsert NotAbove item := by
  induction items with
  | nil =>
      rfl
  | cons first rest inductionHypothesis =>
      rw [insertField, List.orderedInsert_cons, inductionHypothesis]

theorem canonicalFields_eq (registry : Registry) (signingOnly : Bool)
    (entries : List (String × Json)) :
    canonicalFields registry signingOnly entries =
      (writtenFields registry signingOnly entries).insertionSort NotAbove := by
  unfold canonicalFields List.insertionSort
  congr 1
  funext item items
  exact insertField_eq item items

theorem canonicalFields_perm (registry : Registry) (signingOnly : Bool)
    (entries : List (String × Json)) :
    (canonicalFields registry signingOnly entries).Perm
      (writtenFields registry signingOnly entries) := by
  rw [canonicalFields_eq]
  exact List.perm_insertionSort NotAbove _

theorem canonicalFields_pairwise (registry : Registry) (signingOnly : Bool)
    (entries : List (String × Json)) :
    (canonicalFields registry signingOnly entries).Pairwise NotAbove := by
  rw [canonicalFields_eq]
  exact List.pairwise_insertionSort NotAbove _

/-- The parts of an object in the order in which they are written. -/
abbrev orderedParts (context : Context) (entries : List (String × Json)) : List (Field × Json) :=
  canonicalFields context.registry false (expanded context.addresses entries)

theorem orderedParts_perm (context : Context) (entries : List (String × Json)) :
    (orderedParts context entries).Perm (parts context .object (.object entries)) :=
  canonicalFields_perm _ _ _

theorem mem_parts_of_mem_ordered {context : Context} {entries : List (String × Json)}
    {part : Field × Json} (member : part ∈ orderedParts context entries) :
    part ∈ parts context .object (.object entries) :=
  (orderedParts_perm context entries).mem_iff.mp member

/-! ## Single segments -/

theorem segment_eq_ok {writeValue : ValueWriter} {field : Field} {value : Json} {omitted : Bool}
    {written : Segment} :
    segment writeValue field value omitted = .ok written ↔
      field.header ≠ [] ∧ written.field = field ∧
        if field.lengthPrefixed then
          ∃ bytes, (if omitted then bytes = [] else writeValue field value = .ok bytes) ∧
            Length.frame bytes = .ok written.body
        else
          ∃ bytes, writeValue field value = .ok bytes ∧
            written.body = if field.kind = .object then bytes ++ [objectEnd] else bytes := by
  obtain ⟨writtenField, body⟩ := written
  unfold segment
  by_cases headed : field.header = []
  · simp [headed]
  · cases field.lengthPrefixed with
    | true =>
        cases omitted with
        | true =>
            simp [headed, Outcome.bind_eq_ok]
            tauto
        | false =>
            simp [headed, Outcome.bind_eq_ok]
            tauto
    | false =>
        simp [headed, Outcome.bind_eq_ok]
        tauto

theorem value_of_segment {writeValue : ValueWriter} {field : Field} {value : Json}
    {written : Segment} (segmented : segment writeValue field value false = .ok written) :
    ∃ bytes, writeValue field value = .ok bytes := by
  obtain ⟨_, _, framing⟩ := segment_eq_ok.mp segmented
  split at framing
  · obtain ⟨bytes, given, _⟩ := framing
    exact ⟨bytes, given⟩
  · obtain ⟨bytes, given, _⟩ := framing
    exact ⟨bytes, given⟩

theorem itemSegment_eq_ok {registry : Registry} {writeValue : ValueWriter} {item : Json}
    {written : Segment} :
    itemSegment registry writeValue item = .ok written ↔
      ∃ part, itemPart? registry item = some part ∧ part.1.kind = .object ∧
        segment writeValue part.1 part.2 false = .ok written := by
  unfold itemSegment
  by_cases single : ∃ name value, item = .object [(name, value)]
  · obtain ⟨name, value, rfl⟩ := single
    cases known : registry.field? name with
    | none =>
        simp [singleEntry, itemPart?, known]
    | some field =>
        by_cases isObject : field.kind = .object
        · simp [singleEntry, itemPart?, known, isObject]
        · simp [singleEntry, itemPart?, known, isObject]
  · have refused : singleEntry item = .error (.invalidValue "STArray" (.notSingleEntry item)) := by
      unfold singleEntry
      split
      · rename_i entry
        exact absurd ⟨entry.1, entry.2, rfl⟩ single
      · rfl
    have none : itemPart? registry item = none := by
      unfold itemPart?
      split
      · rename_i name value
        exact absurd ⟨name, value, rfl⟩ single
      · rfl
    simp [refused, none]

/-! ## Objects and arrays -/

variable {context : Context}

theorem objectBytes_eq_ok {writeValue : ValueWriter} {signingOnly : Bool} {value : Json}
    {bytes : Bytes} :
    objectBytes context writeValue signingOnly value = .ok bytes ↔
      ∃ entries written, value = .object entries ∧
        segments context.registry context.addresses writeValue signingOnly entries = .ok written ∧
        bytes = written.flatMap Segment.bytes := by
  cases value with
  | object entries =>
      simp [objectBytes, Json.asObject, Outcome.bind_eq_ok, eq_comm (b := bytes)]
  | _ =>
      simp [objectBytes, Json.asObject]

/-- Each part of an object has its segment. -/
theorem segments_eq_ok {writeValue : ValueWriter} {signingOnly : Bool}
    {entries : List (String × Json)} {written : List Segment} :
    segments context.registry context.addresses writeValue signingOnly entries = .ok written ↔
      (∃ result, expand context.addresses entries = .ok result) ∧
        List.Forall₂ (fun part one =>
            segment writeValue part.1 part.2
              (changesValidators context.registry (expanded context.addresses entries) &&
                part.1.name == "Account") = .ok one)
          (canonicalFields context.registry signingOnly (expanded context.addresses entries))
          written := by
  unfold segments
  cases given : expand context.addresses entries with
  | error fault =>
      simp
  | ok result =>
      rw [expand_eq_ok given, Outcome.ok_bind, Outcome.mapM_eq_ok]
      simp

/-- Each item of an array is an object field with a value. -/
theorem arrayBytes_eq_ok {writeValue : ValueWriter} {value : Json} {bytes : Bytes} :
    arrayBytes context writeValue value = .ok bytes ↔
      ∃ items written, value = .array items ∧
        List.Forall₂ (fun item one => itemSegment context.registry writeValue item = .ok one)
          items written ∧
        bytes = written.flatMap Segment.bytes ++ [arrayEnd] := by
  cases value with
  | array items =>
      simp [arrayBytes, Json.asArray, Outcome.bind_eq_ok, Outcome.mapM_eq_ok,
        eq_comm (b := bytes)]
  | _ =>
      simp [arrayBytes, Json.asArray]

theorem forall₂_parts_of_items {writeValue : ValueWriter} {items : List Json}
    {written : List Segment}
    (related : List.Forall₂
      (fun item one => itemSegment context.registry writeValue item = .ok one) items written) :
    List.Forall₂ (fun part one => part.1.kind = .object ∧
        segment writeValue part.1 part.2 false = .ok one)
      (parts context .array (.array items)) written := by
  rw [parts]
  induction related with
  | nil =>
      exact .nil
  | cons head _ inductionHypothesis =>
      obtain ⟨part, found, isObject, segmented⟩ := itemSegment_eq_ok.mp head
      rw [List.filterMap_cons_some found]
      exact .cons ⟨isObject, segmented⟩ inductionHypothesis

/-! ## Values at any depth -/

theorem segment_congr {left right : ValueWriter} {field : Field} {value other : Json}
    {omitted : Bool} (same : left field value = right field other) :
    segment left field value omitted = segment right field other omitted := by
  unfold segment
  rw [same]

theorem segment_omitted {writeValue : ValueWriter} {field : Field}
    (prefixed : field.lengthPrefixed = true) (value other : Json) :
    segment writeValue field value true = segment writeValue field other true := by
  unfold segment
  rw [if_pos prefixed, if_pos prefixed]
  rfl

private theorem segments_congr {left right : ValueWriter} {entries : List (String × Json)}
    (same : ∀ part ∈ parts context .object (.object entries),
      left part.1 part.2 = right part.1 part.2) :
    segments context.registry context.addresses left false entries =
      segments context.registry context.addresses right false entries := by
  unfold segments
  cases given : expand context.addresses entries with
  | error fault =>
      rfl
  | ok result =>
      rw [expand_eq_ok given, Outcome.ok_bind, Outcome.ok_bind]
      refine Outcome.mapM_congr fun part member => segment_congr (same part ?_)
      exact (canonicalFields_perm _ _ _).mem_iff.mp member

private theorem itemSegment_congr {registry : Registry} {left right : ValueWriter} {item : Json}
    (same : ∀ part, itemPart? registry item = some part →
      left part.1 part.2 = right part.1 part.2) :
    itemSegment registry left item = itemSegment registry right item := by
  unfold itemSegment
  cases alone : singleEntry item with
  | error fault =>
      rfl
  | ok entry =>
      obtain ⟨name, inner⟩ := entry
      have shape : item = .object [(name, inner)] := by
        unfold singleEntry at alone
        split at alone
        · cases alone
          rfl
        · cases alone
      simp only [Outcome.ok_bind]
      cases known : registry.field? name with
      | none =>
          rfl
      | some field =>
          have found : itemPart? registry item = some (field, inner) := by
            rw [shape, itemPart?, known]
            rfl
          have agree := same (field, inner) found
          dsimp only
          rw [segment_congr agree]

/-- Two ways of writing that agree on the parts of a value agree on the value. -/
theorem valueBytesWith_congr {left right : ValueWriter} {field : Field} {value : Json}
    (same : ∀ part ∈ parts context field.kind value,
      left part.1 part.2 = right part.1 part.2) :
    valueBytesWith context left field value = valueBytesWith context right field value := by
  unfold valueBytesWith
  split
  · rfl
  · rename_i isObject
    rw [isObject] at same
    cases value with
    | object entries =>
        rw [objectBytes, objectBytes, Json.asObject, Outcome.ok_bind, Outcome.ok_bind,
          segments_congr same]
    | _ =>
        rfl
  · rename_i isArray
    rw [isArray] at same
    cases value with
    | array items =>
        have each : items.mapM (itemSegment context.registry left) =
            items.mapM (itemSegment context.registry right) :=
          Outcome.mapM_congr fun item member => itemSegment_congr fun part found =>
            same part (List.mem_filterMap.mpr ⟨item, member, found⟩)
        rw [arrayBytes, arrayBytes, Json.asArray, Outcome.ok_bind, Outcome.ok_bind, each]
    | _ =>
        rfl
  · rfl

private theorem valueBytes_eq {depth : Nat} {field : Field} {value : Json}
    (enough : value.depth ≤ depth) :
    valueBytes context depth field value =
      valueBytesWith context (fieldValueBytes context) field value := by
  induction depth using Nat.strongRecOn generalizing field value with
  | ind depth inductionHypothesis =>
      cases depth with
      | zero =>
          refine valueBytesWith_congr fun part member => ?_
          have inside := depth_lt_of_mem_parts member
          omega
      | succ depth =>
          refine valueBytesWith_congr fun part member => ?_
          have inside := depth_lt_of_mem_parts member
          rw [fieldValueBytes, inductionHypothesis depth (by omega) (by omega),
            inductionHypothesis part.2.depth (by omega) (Nat.le_refl _)]

theorem fieldValueBytes_eq (field : Field) (value : Json) :
    fieldValueBytes context field value =
      valueBytesWith context (fieldValueBytes context) field value :=
  valueBytes_eq (Nat.le_refl _)

end LedgerWire.Object
