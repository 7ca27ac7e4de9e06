import LedgerWire.Object.Decoding
import LedgerWire.Proofs.Nesting
import LedgerWire.Proofs.StandardRegistry

/-!
# Reading back what was written

The octets of a value are read as its normal form, with exactly as many levels
as it nests. The induction follows the parts of the document, and each value is
judged with any octets behind it.
-/

namespace LedgerWire.Object

variable {context : Context}

/-! ## Fields in a row -/

/-- A field is read by its header, and the octets behind as the value shown. -/
structure ReadsSegment (context : Context) (room : Nat) (readValue : Field → Read Json)
    (marker : String) (field : Field) (body : Bytes) (shown : Json) (levels : Nat) : Prop where
  headed : field.header ≠ []
  header : Takes (Header.readField context.registry) field.header field
  unmarked : field.name ≠ marker
  value : Reads room (readValue field) body shown levels

section Fields

variable {room : Nat} {readValue : Field → Read Json} {marker : String}

theorem readFields_succ (fuel : Nat) :
    readFields context readValue marker (fuel + 1) =
      Read.isEnd >>= fun isEnd =>
        if isEnd then pure []
        else
          Header.readField context.registry >>= fun field =>
            if field.name = marker then pure []
            else
              readValue field >>= fun value =>
                List.cons (field.name, value) <$> readFields context readValue marker fuel := by
  rw [readFields]
  simp only [map_eq_pure_bind]

/-- Segments are read one after another, each as an entry under its field's name. -/
theorem runs_readFields {items : List (Field × Json)} {written : List Segment}
    {shown : Field × Json → Json} {levels : Field × Json → Nat}
    (each : List.Forall₂ (fun part one => one.field = part.1 ∧
      ReadsSegment context room readValue marker part.1 one.body (shown part) (levels part))
        items written) (fuel : Nat) :
    Runs room (readFields context readValue marker (written.length + fuel))
      (written.flatMap Segment.bytes)
      ((items.map fun part => (part.1.name, shown part)).append <$>
        readFields context readValue marker fuel)
      (greatest (items.map levels)) := by
  induction each with
  | nil =>
      have same : ([] : List (String × Json)).append = id := rfl
      rw [List.length_nil, Nat.zero_add, List.map_nil, same, id_map]
      exact Runs.refl room _
  | @cons part one items written head _ inductionHypothesis =>
      obtain ⟨field, body⟩ := one
      obtain ⟨rfl, reads⟩ := head
      have count : (⟨part.1, body⟩ :: written).length + fuel = (written.length + fuel) + 1 := by
        rw [List.length_cons]
        omega
      have octets : (⟨part.1, body⟩ :: written).flatMap Segment.bytes =
          part.1.header ++ (body ++ written.flatMap Segment.bytes) := by
        simp [Segment.bytes]
      have nonempty : part.1.header ++ (body ++ written.flatMap Segment.bytes) ≠ [] := by
        simp [reads.headed]
      have others := inductionHypothesis.map (List.cons (part.1.name, shown part))
      rw [← comp_map] at others
      rw [count, readFields_succ, octets]
      refine Runs.not_isEnd nonempty (Runs.behind reads.header ?_)
      rw [if_neg reads.unmarked]
      exact reads.value.bind others

/-- The header of the end marker ends the fields. -/
theorem reads_marker {last : Field} (named : last.name = marker) (headed : last.header ≠ [])
    (header : Takes (Header.readField context.registry) last.header last) (fuel : Nat) :
    Reads room (readFields context readValue marker (fuel + 1)) last.header [] 0 := by
  rw [readFields_succ]
  refine Runs.not_isEnd headed ?_
  rw [← List.append_nil last.header]
  refine Runs.behind header ?_
  rw [if_pos named]
  exact (Takes.pure []).reads

theorem length_le_bytes {written : List Segment}
    (headed : ∀ one ∈ written, one.field.header ≠ []) :
    written.length ≤ (written.flatMap Segment.bytes).length := by
  induction written with
  | nil =>
      exact Nat.zero_le _
  | cons one written inductionHypothesis =>
      have others := inductionHypothesis fun other member =>
        headed other (List.mem_cons_of_mem one member)
      have positive := List.length_pos_iff.mpr (headed one List.mem_cons_self)
      simp only [List.length_cons, List.flatMap_cons, List.length_append, Segment.bytes]
        at others ⊢
      omega

/-- Segments and the end marker are read as the entries of the segments. -/
theorem reads_readFields {items : List (Field × Json)} {written : List Segment}
    {shown : Field × Json → Json} {levels : Field × Json → Nat}
    (each : List.Forall₂ (fun part one => one.field = part.1 ∧
      ReadsSegment context room readValue marker part.1 one.body (shown part) (levels part))
        items written)
    {last : Field} (named : last.name = marker) (headed : last.header ≠ [])
    (header : Takes (Header.readField context.registry) last.header last) {left : Nat}
    (enough : (written.flatMap Segment.bytes ++ last.header).length ≤ left) :
    Reads room (readFields context readValue marker left)
      (written.flatMap Segment.bytes ++ last.header)
      (items.map fun part => (part.1.name, shown part)) (greatest (items.map levels)) := by
  have few : written.length ≤ (written.flatMap Segment.bytes).length := by
    refine length_le_bytes fun one member => ?_
    obtain ⟨part, _, same, reads⟩ := Outcome.exists_of_mem_right each member
    rw [same]
    exact reads.headed
  have positive := List.length_pos_iff.mpr headed
  rw [List.length_append] at enough
  obtain ⟨fuel, rfl⟩ : ∃ fuel, left = written.length + (fuel + 1) :=
    ⟨left - written.length - 1, by omega⟩
  have ended : Reads room (readFields context readValue marker (fuel + 1)) last.header [] 0 :=
    reads_marker named headed header fuel
  have both := (runs_readFields each (fuel + 1)).trans
    (ended.map (items.map fun part => (part.1.name, shown part)).append)
  rw [Nat.max_zero, map_pure] at both
  simpa using both

end Fields

/-! ## Values without fields of their own -/

/-- The reader of the values inside, where this many levels may be opened. -/
def innerReader (context : Context) : Nat → Field → Read Json
  | 0 => fun _ => throw (.nestingTooDeep Cursor.maxDepth)
  | room + 1 => readFieldValueAt context room

theorem readFieldValueAt_eq (room : Nat) :
    readFieldValueAt context room = readFieldValueWith context (innerReader context room) := by
  cases room <;> rfl

private theorem takes_readSize {field : Field} {front bytes : Bytes}
    (framed : if field.lengthPrefixed then Length.encode bytes.length = .ok front else front = []) :
    Takes (readSize field) front (if field.lengthPrefixed then some bytes.length else none) := by
  unfold readSize
  cases prefixed : field.lengthPrefixed with
  | true =>
      rw [prefixed, if_pos rfl] at framed
      exact (Length.takes_read framed).map some
  | false =>
      rw [prefixed, if_neg (by decide)] at framed
      rw [framed]
      exact Takes.pure none

theorem fieldValueBytes_scalar {field : Field} {kind : ScalarKind}
    (isScalar : field.kind = .scalar kind) {value : Json} {bytes : Bytes} :
    fieldValueBytes context field value = .ok bytes ↔
      ∃ scalar, Scalar.ofJson context value kind = .ok scalar ∧ scalar.bytes = bytes := by
  rw [fieldValueBytes_eq, valueBytesWith, isScalar]
  exact Outcome.bind_pure_eq_ok

section Scalars

variable (sound : context.Sound) {field : Field} (member : field ∈ context.registry.fields)
  {kind : ScalarKind} (isScalar : field.kind = .scalar kind) {value : Json} {written : Segment}

include sound member isScalar

private theorem takes_scalar
    (segmented : segment (fieldValueBytes context) field value false = .ok written)
    (steps : stepped (.scalar kind) value = true) (readValue : Field → Read Json) :
    Takes (readFieldValueWith context readValue field) written.body
      (NormalForm.scalar context kind value) := by
  obtain ⟨headed, same, framing⟩ := segment_eq_ok.mp segmented
  have sized : field.lengthPrefixed = kind.sized := by
    rw [sound.registry.framed member headed, isScalar]
    rfl
  obtain ⟨bytes, front, valueWritten, shown, framed⟩ : ∃ bytes front,
      fieldValueBytes context field value = .ok bytes ∧ written.body = front ++ bytes ∧
        if field.lengthPrefixed then Length.encode bytes.length = .ok front else front = [] := by
    cases prefixed : field.lengthPrefixed with
    | true =>
        rw [prefixed, if_pos rfl] at framing
        obtain ⟨bytes, valueWritten, framed⟩ := framing
        obtain ⟨front, lengthWritten, shown⟩ := Length.frame_eq_ok.mp framed
        exact ⟨bytes, front, valueWritten, shown, lengthWritten⟩
    | false =>
        rw [prefixed, if_neg (by decide)] at framing
        obtain ⟨bytes, valueWritten, shown⟩ := framing
        rw [isScalar, if_neg (by simp)] at shown
        exact ⟨bytes, [], valueWritten, shown, by simp⟩
  obtain ⟨scalar, given, rfl⟩ := (fieldValueBytes_scalar isScalar).mp valueWritten
  have faithful := Scalar.faithful sound.addresses sound.registry.toNamed given
  have taken := faithful.taken (by rintro rfl; exact steps)
  rw [shown]
  refine (takes_readSize framed).bind ?_
  rw [isScalar, sized]
  refine taken.bind_pure ?_
  rw [faithful.shown]

/-- An account without a value is read as the zero account. -/
theorem takes_omitted (segmented : segment (fieldValueBytes context) field value true = .ok written)
    (named : field.name = "Account") (readValue : Field → Read Json) :
    Takes (readFieldValueWith context readValue field) written.body
      (Account.toJson context.addresses (Hash.zero 20)) := by
  obtain ⟨headed, same, framing⟩ := segment_eq_ok.mp segmented
  obtain rfl : kind = .account := by
    have account := sound.registry.account member named
    rw [isScalar] at account
    simpa using account
  have prefixed : field.lengthPrefixed = true := by
    rw [sound.registry.framed member headed, isScalar]
    rfl
  rw [prefixed, if_pos rfl] at framing
  obtain ⟨bytes, none, framed⟩ := framing
  obtain rfl : bytes = [] := none
  obtain ⟨front, lengthWritten, shown⟩ := Length.frame_eq_ok.mp framed
  have size : Takes (readSize field) front (some 0) := by
    have taken : Takes (readSize field) front
        (if field.lengthPrefixed then some ([] : Bytes).length else none) :=
      takes_readSize (by rw [prefixed, if_pos rfl]; exact lengthWritten)
    rwa [prefixed, if_pos rfl] at taken
  rw [shown, List.append_nil]
  refine size.bind_pure ?_
  rw [isScalar]
  rfl

end Scalars

/-! ## Values at any depth -/

/-- What is asked of a value so that it is read back. -/
structure Readable (context : Context) (kind : FieldKind) (value : Json) : Prop where
  distinct : value.distinctKeys = true
  unmarked : everywhere context unmarked kind value = true
  stepped : everywhere context stepped kind value = true

namespace Readable

theorem part {kind : FieldKind} {value : Json} (readable : Readable context kind value)
    {part : Field × Json} (member : part ∈ parts context kind value) :
    Readable context part.1.kind part.2 where
  distinct := distinctKeys_of_mem_parts readable.distinct member
  unmarked := ((everywhere_iff context).mp readable.unmarked).2 part member
  stepped := ((everywhere_iff context).mp readable.stepped).2 part member

end Readable

/-- What a value is read as, if it is omitted or not. -/
def shownAs (context : Context) (omitted : Bool) (kind : FieldKind) (value : Json) : Json :=
  if omitted then Account.toJson context.addresses (Hash.zero 20)
  else NormalForm.value context kind value

/-- A field of this kind with this value is read back from its segment. -/
def ReadsBack (context : Context) (kind : FieldKind) (value : Json) : Prop :=
  Readable context kind value →
    ∀ {field : Field}, field ∈ context.registry.fields → field.kind = kind →
      ∀ {omitted : Bool} {written : Segment}, (omitted = true → field.name = "Account") →
        segment (fieldValueBytes context) field value omitted = .ok written →
          ∀ room, Reads room (readFieldValueAt context room field) written.body
            (shownAs context omitted kind value) (levels context kind value)

private theorem readsBack_scalar (sound : context.Sound) (kind : ScalarKind) (value : Json) :
    ReadsBack context (.scalar kind) value := by
  intro readable field member isScalar omitted written named segmented room
  rw [readFieldValueAt_eq, levels_scalar]
  apply Takes.reads
  cases omitted with
  | true =>
      exact takes_omitted sound member isScalar segmented (named rfl) _
  | false =>
      rw [shownAs, if_neg (by decide), NormalForm.value_scalar]
      exact takes_scalar sound member isScalar segmented
        ((everywhere_iff context).mp readable.stepped).1 _

/-- A field without a length in front has the octets of its value as its body, behind an
object the end mark, and is never omitted. -/
theorem unsized_segment (sound : context.registry.Sound) {field : Field}
    (member : field ∈ context.registry.fields) (unsized : field.kind.sized = false) {value : Json}
    {omitted : Bool} {written : Segment} (named : omitted = true → field.name = "Account")
    (segmented : segment (fieldValueBytes context) field value omitted = .ok written) :
    omitted = false ∧ field.lengthPrefixed = false ∧
      ∃ bytes, valueBytesWith context (fieldValueBytes context) field value = .ok bytes ∧
        written.body = if field.kind = .object then bytes ++ [objectEnd] else bytes := by
  obtain ⟨headed, _, framing⟩ := segment_eq_ok.mp segmented
  have bare : field.lengthPrefixed = false := by
    rw [sound.framed member headed, unsized]
  rw [bare, if_neg (by decide)] at framing
  obtain ⟨bytes, valueWritten, shown⟩ := framing
  refine ⟨?_, bare, bytes, fieldValueBytes_eq field value ▸ valueWritten, shown⟩
  rw [Bool.eq_false_iff]
  intro isOmitted
  rw [sound.account member (named isOmitted)] at unsized
  cases unsized

theorem takes_header (sound : context.Sound) {field : Field}
    (member : field ∈ context.registry.fields) (headed : field.header ≠ []) :
    Takes (Header.readField context.registry) field.header field := by
  obtain ⟨typePositive, nthPositive⟩ := sound.registry.positive member headed
  exact Header.takes_readField typePositive nthPositive headed
    (sound.registry.located member headed)

theorem mem_fields_of_mem_parts {kind : FieldKind} {value : Json} {part : Field × Json}
    (member : part ∈ parts context kind value) : part.1 ∈ context.registry.fields :=
  (Registry.mem_of_field? (field?_of_mem_parts member)).1

theorem readsSegments_object (sound : context.Sound) {entries : List (String × Json)}
    {written : List Segment} {marker : String}
    (unmarked : ∀ part ∈ parts context .object (.object entries), part.1.name ≠ marker)
    (readable : ∀ part ∈ parts context .object (.object entries),
      Readable context part.1.kind part.2)
    (inside : ∀ part ∈ parts context .object (.object entries),
      ReadsBack context part.1.kind part.2)
    (given : segments context.registry context.addresses (fieldValueBytes context) false entries =
      .ok written) (room : Nat) :
    List.Forall₂ (fun part one => one.field = part.1 ∧
      ReadsSegment context room (readFieldValueAt context room) marker part.1 one.body
        (shownAs context (NormalForm.omitsAccount context (.object entries) &&
          part.1.name == "Account") part.1.kind part.2)
        (levels context part.1.kind part.2))
      (orderedParts context entries) written := by
  obtain ⟨_, related⟩ := segments_eq_ok.mp given
  refine Outcome.imp_of_mem_left related fun part present one segmented => ?_
  have member := mem_parts_of_mem_ordered present
  have fieldMember := mem_fields_of_mem_parts member
  obtain ⟨headed, same, _⟩ := segment_eq_ok.mp segmented
  refine ⟨same, headed, takes_header sound fieldMember headed, unmarked part member, ?_⟩
  refine inside part member (readable part member) fieldMember rfl (fun omitted => ?_) segmented
    room
  rw [Bool.and_eq_true, beq_iff_eq] at omitted
  exact omitted.2

/-- The entries that an object's segments are read as. -/
def shownEntries (context : Context) (entries : List (String × Json)) : List (String × Json) :=
  (orderedParts context entries).map fun part =>
    (part.1.name, shownAs context (NormalForm.omitsAccount context (.object entries) &&
      part.1.name == "Account") part.1.kind part.2)

private theorem shownEntries_perm (entries : List (String × Json)) :
    (shownEntries context entries).Perm
      ((parts context .object (.object entries)).map fun part =>
        NormalForm.entry context (NormalForm.omitsAccount context (.object entries)) part.1
          (NormalForm.value context part.1.kind part.2)) :=
  (orderedParts_perm context entries).map _

theorem nodup_keys_shownEntries {entries result : List (String × Json)}
    (expands : expand context.addresses entries = .ok result)
    (distinct : (entries.map (·.1)).Nodup) :
    ((shownEntries context entries).map (·.1)).Nodup := by
  rw [shownEntries, List.map_map]
  exact ((orderedParts_perm context entries).map (·.1.name)).nodup_iff.mpr
    (nodup_names expands distinct)

/-- Together they make its normal form. -/
theorem ofEntries_shownEntries {entries result : List (String × Json)}
    (expands : expand context.addresses entries = .ok result)
    (distinct : (entries.map (·.1)).Nodup) :
    Json.ofEntries (shownEntries context entries) =
      NormalForm.value context .object (.object entries) := by
  rw [NormalForm.value_object]
  exact Json.ofEntries_perm (shownEntries_perm entries) (nodup_keys_shownEntries expands distinct)

section Nested

variable {room : Nat} {readValue : Field → Read Json} {bytes : Bytes}
  {entries : List (String × Json)} {levels : Nat}

private theorem reads_readObject (each : ∀ left, bytes.length ≤ left →
      Reads room (readFields context readValue "ObjectEndMarker" left) bytes entries levels) :
    Reads room (readObject context readValue) bytes (Json.ofEntries entries) levels :=
  Runs.remaining fun left enough =>
    (each left enough).goOn fun entries => pure (Json.ofEntries entries)

private theorem reads_readArray (each : ∀ left, bytes.length ≤ left →
      Reads room (readFields context readValue "ArrayEndMarker" left) bytes entries levels) :
    Reads room (readArray context readValue) bytes
      (.array (entries.map fun entry => .object [entry])) levels :=
  Runs.remaining fun left enough =>
    (each left enough).goOn fun entries =>
      pure (Json.array (entries.map fun entry => .object [entry]))

end Nested

private theorem readsBack_object (sound : context.Sound) {value : Json}
    (inside : ∀ part ∈ parts context .object value, ReadsBack context part.1.kind part.2) :
    ReadsBack context .object value := by
  intro readable field member isObject omitted written named segmented room
  obtain ⟨rfl, bare, bytes, valueWritten, shown⟩ :=
    unsized_segment sound.registry member (by rw [isObject]; rfl) named segmented
  rw [isObject, if_pos rfl] at shown
  rw [valueBytesWith, isObject] at valueWritten
  obtain ⟨entries, segments, rfl, given, rfl⟩ := objectBytes_eq_ok.mp valueWritten
  obtain ⟨⟨result, expands⟩, _⟩ := segments_eq_ok.mp given
  obtain ⟨last, found, lastHeader⟩ := sound.registry.objectEnd
  obtain ⟨lastMember, lastNamed⟩ := Registry.mem_of_field? found
  have lastHeaded : last.header ≠ [] := by
    rw [lastHeader]
    exact List.cons_ne_nil _ _
  have noMark := ((everywhere_iff context).mp readable.unmarked).1
  rw [shown, shownAs, if_neg (by decide), readFieldValueAt_eq, levels_object,
    readFieldValueWith, readSize, bare, if_neg (by decide), pure_bind, isObject, ← lastHeader,
    ← ofEntries_shownEntries expands (Json.distinctKeys_object.mp readable.distinct).1]
  refine Runs.nested fun inner same => ?_
  subst same
  refine reads_readObject fun left enough => ?_
  have lines := readsSegments_object sound
    (fun part member => name_ne_of_unmarked noMark member)
    (fun part member => readable.part member) inside given inner
  have reads := reads_readFields lines lastNamed lastHeaded
    (takes_header sound lastMember lastHeaded) enough
  rwa [greatest_perm ((orderedParts_perm context entries).map _)] at reads

private theorem readsBack_array (sound : context.Sound) {value : Json}
    (inside : ∀ part ∈ parts context .array value, ReadsBack context part.1.kind part.2) :
    ReadsBack context .array value := by
  intro readable field member isArray omitted written named segmented room
  obtain ⟨rfl, bare, bytes, valueWritten, shown⟩ :=
    unsized_segment sound.registry member (by rw [isArray]; rfl) named segmented
  rw [isArray, if_neg (by decide)] at shown
  rw [valueBytesWith, isArray] at valueWritten
  obtain ⟨items, segments, rfl, given, rfl⟩ := arrayBytes_eq_ok.mp valueWritten
  have related := forall₂_parts_of_items given
  obtain ⟨last, found, lastHeader, lastKind⟩ := sound.registry.arrayEnd
  obtain ⟨lastMember, lastNamed⟩ := Registry.mem_of_field? found
  have lastHeaded : last.header ≠ [] := by
    rw [lastHeader]
    exact List.cons_ne_nil _ _
  rw [shown, shownAs, if_neg (by decide), readFieldValueAt_eq, levels_array,
    readFieldValueWith, readSize, bare, if_neg (by decide), pure_bind, isArray, ← lastHeader,
    NormalForm.value_array]
  refine Runs.nested fun inner same => ?_
  subst same
  have lines : List.Forall₂ (fun part one => one.field = part.1 ∧
      ReadsSegment context inner (readFieldValueAt context inner) "ArrayEndMarker" part.1 one.body
        (NormalForm.value context part.1.kind part.2) (levels context part.1.kind part.2))
      (parts context .array (.array items)) segments := by
    refine Outcome.imp_of_mem_left related fun part partMember one both => ?_
    obtain ⟨partObject, partSegmented⟩ := both
    have fieldMember := mem_fields_of_mem_parts partMember
    obtain ⟨partHeaded, partSame, _⟩ := segment_eq_ok.mp partSegmented
    refine ⟨partSame, partHeaded, takes_header sound fieldMember partHeaded, ?_, ?_⟩
    · intro marked
      have known := field?_of_mem_parts partMember
      rw [marked, found] at known
      rw [Option.some.inj known] at lastKind
      exact lastKind partObject
    · exact inside part partMember (readable.part partMember) fieldMember rfl
        (fun impossible => absurd impossible (by decide)) partSegmented inner
  have whole := reads_readArray fun left enough =>
    reads_readFields lines lastNamed lastHeaded (takes_header sound lastMember lastHeaded) enough
  rwa [List.map_map] at whole

private theorem readsBack_unsupported (sound : context.Sound) (value : Json) :
    ReadsBack context .unsupported value := by
  intro _ field member isUnsupported omitted written named segmented
  obtain ⟨_, _, bytes, valueWritten, _⟩ :=
    unsized_segment sound.registry member (by rw [isUnsupported]; rfl) named segmented
  rw [valueBytesWith, isUnsupported] at valueWritten
  cases valueWritten

/-- Every value is read back, whatever its kind. -/
theorem readsBack (sound : context.Sound) (kind : FieldKind) (value : Json) :
    ReadsBack context kind value := by
  induction kind, value using @parts_induction context with
  | step kind value inside =>
      cases kind with
      | scalar kind =>
          exact readsBack_scalar sound kind value
      | object =>
          exact readsBack_object sound inside
      | array =>
          exact readsBack_array sound inside
      | unsupported =>
          exact readsBack_unsupported sound value

end LedgerWire.Object
