import LedgerWire.Proofs.DecodedDocuments

/-!
# How much a decoded value holds

The name of an entry tells the kind of its value, so in a value that is shown the
objects, arrays and fields that were read can be told from what a scalar is shown
as. A value that was read from some octets under a number of levels has no more
fields than there are octets, and no more objects and arrays in one another than
there are levels.
-/

namespace LedgerWire

/-! ## Measures -/

/-- A way of measuring the fields of a value: what a field counts with its value, what
an object or array counts with its fields, and what two fields in a row come to. -/
structure Gauge where
  field : Nat
  group : Nat
  join : Nat → Nat → Nat
  join_zero : ∀ left, join left 0 = left
  le_join : ∀ left right, right ≤ join left right
  join_le_join : ∀ left {right other}, right ≤ other → join left right ≤ join left other
  left_comm : ∀ first second rest, join first (join second rest) = join second (join first rest)

namespace Gauge

/-- How many fields there are. -/
def count : Gauge where
  field := 1
  group := 0
  join left right := left + right
  join_zero := Nat.add_zero
  le_join left right := Nat.le_add_left right left
  join_le_join left _ _ atMost := Nat.add_le_add_left atMost left
  left_comm := Nat.add_left_comm

/-- How many objects and arrays there are in one another. -/
def depth : Gauge where
  field := 0
  group := 1
  join left right := max left right
  join_zero := Nat.max_zero
  le_join := Nat.le_max_right
  join_le_join left _ _ atMost := max_le_max_left left atMost
  left_comm := Nat.max_left_comm

variable (gauge : Gauge) (registry : Registry)

/-- The kind that the values under a name have. -/
def kindOf (name : String) : FieldKind :=
  match registry.field? name with
  | some field => field.kind
  | none => .unsupported

mutual

/-- The measure of a value of this kind. What a scalar is shown as counts nothing. -/
def ofValue : FieldKind → Json → Nat
  | .object, .object entries => ofEntries entries + gauge.group
  | .array, .array items => ofItems items + gauge.group
  | _, _ => 0

def ofEntries : List (String × Json) → Nat
  | [] => 0
  | (name, value) :: rest =>
      gauge.join (ofValue (kindOf registry name) value + gauge.field) (ofEntries rest)

/-- An item is shown as an object with the entry of its field. -/
def ofItems : List Json → Nat
  | [] => 0
  | item :: rest => gauge.join (ofItem item) (ofItems rest)

def ofItem : Json → Nat
  | .object entries => ofEntries entries
  | _ => 0

end

variable {gauge : Gauge} {registry : Registry}

private theorem ofValue_scalar (kind : ScalarKind) (shown : Json) :
    gauge.ofValue registry (.scalar kind) shown = 0 := by
  cases shown <;> rfl

/-- Items count what their entries do. -/
theorem ofItems_eq_ofEntries (entries : List (String × Json)) :
    gauge.ofItems registry (entries.map fun entry => .object [entry]) =
      gauge.ofEntries registry entries := by
  induction entries with
  | nil =>
      rfl
  | cons entry rest inductionHypothesis =>
      obtain ⟨name, value⟩ := entry
      rw [List.map_cons, ofItems, inductionHypothesis, ofItem, ofEntries, ofEntries,
        gauge.join_zero, ofEntries]

private theorem ofEntries_addEntry_le (name : String) (value : Json)
    (entries : List (String × Json)) :
    gauge.ofEntries registry (Json.addEntry name value entries) ≤
      gauge.ofEntries registry ((name, value) :: entries) := by
  induction entries with
  | nil =>
      exact Nat.le_refl _
  | cons first rest inductionHypothesis =>
      obtain ⟨other, held⟩ := first
      rw [Json.addEntry]
      split
      · exact Nat.le_refl _
      · split
        · exact gauge.le_join _ _
        · have later := gauge.join_le_join
            (gauge.ofValue registry (kindOf registry other) held + gauge.field) inductionHypothesis
          rw [ofEntries, gauge.left_comm, ← ofEntries, ← ofEntries] at later
          exact later

/-- Entries that give way to others with their names do not count. -/
theorem ofEntries_kept_le (entries : List (String × Json)) :
    gauge.ofEntries registry
        (entries.foldr (fun (name, value) done => Json.addEntry name value done) []) ≤
      gauge.ofEntries registry entries := by
  induction entries with
  | nil =>
      exact Nat.le_refl _
  | cons entry rest inductionHypothesis =>
      rw [List.foldr_cons]
      exact (ofEntries_addEntry_le _ _ _).trans (gauge.join_le_join _ inductionHypothesis)

private theorem ofValue_collect_le (group : Object.Group) (entries : List (String × Json)) :
    gauge.ofValue registry group.kind (group.collect entries) ≤
      gauge.ofEntries registry entries + gauge.group := by
  cases group with
  | object =>
      exact Nat.add_le_add_right (ofEntries_kept_le entries) _
  | array =>
      rw [Object.Group.collect, Object.Group.kind, ofValue, ofItems_eq_ofEntries]

private theorem depth_ofEntries_le {bound : Nat} {entries : List (String × Json)}
    (each : ∀ entry ∈ entries, depth.ofValue registry (kindOf registry entry.1) entry.2 ≤ bound) :
    depth.ofEntries registry entries ≤ bound := by
  induction entries with
  | nil =>
      exact Nat.zero_le bound
  | cons entry rest inductionHypothesis =>
      obtain ⟨first, others⟩ := List.forall_mem_cons.mp each
      exact Nat.max_le.mpr ⟨first, inductionHypothesis others⟩

end Gauge

namespace Object

variable (context : Context)

/-! ## Values and their octets -/

/-- A field with all the octets that its value was read from, under so many levels. -/
inductive Drawn : (room : Nat) → Line → Prop
  | scalar {room : Nat} {line : Line} {kind : ScalarKind}
      (isScalar : line.segment.field.kind = .scalar kind) : Drawn room line
  | group {room : Nat} {field : Field} {group : Group} {front last : Bytes} {lines : List Line}
      (isGroup : field.kind = group.kind)
      (headed : ∀ line ∈ lines, Headed context group.marker line.segment.field)
      (inside : ∀ line ∈ lines, Drawn room line) :
      Drawn (room + 1)
        ⟨⟨field, front ++ (rowBytes lines ++ last)⟩, group.collect (lines.map Line.entry)⟩

variable {context}

section Inversion

variable {room : Nat} {readValue : Field → Read Json} {before after : Cursor} {field : Field}
  {shown : Json}

/-- What a reader of values under so many levels draws its values from. -/
def Draws (context : Context) (room : Nat) (readValue : Field → Read Json) : Prop :=
  ∀ field before shown after, before.levels = room → readValue field before = .ok shown after →
    ∃ body, Took before body after ∧ Drawn context room ⟨⟨field, body⟩, shown⟩

private theorem lines_of_readFields (draws : Draws context room readValue) {marker : String}
    {fuel : Nat} {entries : List (String × Json)} (levels : before.levels = room)
    (succeeded : readFields context readValue marker fuel before = .ok entries after) :
    ∃ lines last, (∀ line ∈ lines, Headed context marker line.segment.field) ∧
      (∀ line ∈ lines, Drawn context room line) ∧ entries = lines.map Line.entry ∧
      Took before (rowBytes lines ++ last) after := by
  induction fuel generalizing before entries with
  | zero =>
      obtain ⟨rfl, rfl⟩ := Read.pure_eq_ok.mp succeeded
      exact ⟨[], [], by simp, by simp, rfl, Took.refl _⟩
  | succ fuel inductionHypothesis =>
      rcases readFields_succ_eq_ok succeeded with ⟨_, rfl, rfl⟩ | ⟨field, _, _, rfl, took⟩ |
        ⟨field, middle, shown, second, others, headed, tookHeader, valueRead, othersRead, rfl⟩
      · exact ⟨[], [], by simp, by simp, rfl, Took.refl _⟩
      · exact ⟨[], field.header, by simp, by simp, rfl, took⟩
      · obtain ⟨body, tookBody, drawn⟩ :=
          draws field middle shown second (tookHeader.levels.trans levels) valueRead
        have took := tookHeader.trans tookBody
        obtain ⟨lines, last, allHeaded, allDrawn, rfl, tookOthers⟩ :=
          inductionHypothesis (took.levels.trans levels) othersRead
        refine ⟨⟨⟨field, body⟩, shown⟩ :: lines, last,
          List.forall_mem_cons.mpr ⟨headed, allHeaded⟩,
          List.forall_mem_cons.mpr ⟨drawn, allDrawn⟩, rfl, ?_⟩
        have whole := took.trans tookOthers
        rw [← List.append_assoc] at whole
        exact whole

private theorem lines_of_readGroup (draws : Draws context room readValue) {group : Group}
    (levels : before.levels = room)
    (succeeded : readGroup context readValue group before = .ok shown after) :
    ∃ lines last, (∀ line ∈ lines, Headed context group.marker line.segment.field) ∧
      (∀ line ∈ lines, Drawn context room line) ∧
      shown = group.collect (lines.map Line.entry) ∧
      Took before (rowBytes lines ++ last) after := by
  rw [readGroup, Read.bind_of_ok (Read.get_apply _)] at succeeded
  obtain ⟨entries, middle, fields, collected⟩ := Read.bind_eq_ok.mp succeeded
  obtain ⟨rfl, rfl⟩ := Read.pure_eq_ok.mp collected
  obtain ⟨lines, last, headed, inside, rfl, took⟩ := lines_of_readFields draws levels fields
  exact ⟨lines, last, headed, inside, rfl, took⟩

private theorem draws_scalar {kind : ScalarKind} (isScalar : field.kind = .scalar kind)
    (succeeded : readFieldValueWith context readValue field before = .ok shown after) :
    ∃ body, Took before body after ∧ Drawn context room ⟨⟨field, body⟩, shown⟩ := by
  rw [readFieldValueWith_scalar isScalar] at succeeded
  obtain ⟨size, middle, sizeRead, rest⟩ := Read.bind_eq_ok.mp succeeded
  obtain ⟨value, last, valueRead, rest⟩ := Read.bind_eq_ok.mp rest
  obtain ⟨front, tookFront, _⟩ := exact_readSize field _ _ _ sizeRead
  obtain ⟨octets, took, _⟩ := Scalar.exact_read size kind _ _ _ valueRead
  cases shows : value.toJson context with
  | error fault =>
      rw [shows] at rest
      cases rest
  | ok given =>
      rw [shows] at rest
      obtain ⟨rfl, rfl⟩ := Read.pure_eq_ok.mp rest
      exact ⟨front ++ octets, tookFront.trans took, Drawn.scalar isScalar⟩

private theorem draws_group {group : Group} (isGroup : field.kind = group.kind)
    (draws : ∀ inner, room = inner + 1 → Draws context inner readValue)
    (levels : before.levels = room)
    (succeeded : readFieldValueWith context readValue field before = .ok shown after) :
    ∃ body, Took before body after ∧ Drawn context room ⟨⟨field, body⟩, shown⟩ := by
  rw [readFieldValueWith_group isGroup] at succeeded
  obtain ⟨size, middle, sizeRead, rest⟩ := Read.bind_eq_ok.mp succeeded
  obtain ⟨front, tookFront, _⟩ := exact_readSize field _ _ _ sizeRead
  obtain ⟨inner, place, deeper, groupRead, rfl⟩ := nested_eq_ok rest
  have roomy : room = inner + 1 := levels.symm.trans (tookFront.levels.symm.trans deeper)
  obtain ⟨lines, last, headed, inside, rfl, took⟩ :=
    lines_of_readGroup (draws inner roomy) rfl groupRead
  have tookRow : Took middle (rowBytes lines ++ last)
      { place with levels := place.levels + 1 } := by
    refine ⟨took.rest, ?_⟩
    rw [deeper, took.levels]
  rw [roomy]
  exact ⟨_, tookFront.trans tookRow, Drawn.group isGroup headed inside⟩

private theorem draws_of_inner (draws : ∀ inner, room = inner + 1 → Draws context inner readValue) :
    Draws context room (readFieldValueWith context readValue) := by
  intro field before shown after levels succeeded
  cases kind : field.kind with
  | scalar _ =>
      exact draws_scalar kind succeeded
  | object =>
      have isGroup : field.kind = Group.object.kind := kind
      exact draws_group isGroup draws levels succeeded
  | array =>
      have isGroup : field.kind = Group.array.kind := kind
      exact draws_group isGroup draws levels succeeded
  | unsupported =>
      rw [readFieldValueWith, kind] at succeeded
      obtain ⟨_, _, _, impossible⟩ := Read.bind_eq_ok.mp succeeded
      cases impossible

/-- Whatever value is read is drawn from the octets that were taken. -/
theorem draws_readFieldValueAt (room : Nat) :
    Draws context room (readFieldValueAt context room) := by
  induction room with
  | zero =>
      apply draws_of_inner
      intro inner impossible
      cases impossible
  | succ room inductionHypothesis =>
      apply draws_of_inner
      intro inner same
      cases same
      exact inductionHypothesis

end Inversion

/-! ## Bounds -/

section Bounds

variable (distinct : Registry.Distinct context.registry.fields) {room : Nat} {lines : List Line}

include distinct

private theorem kindOf_entry {marker : String} {line : Line}
    (headed : Headed context marker line.segment.field) :
    Gauge.kindOf context.registry line.entry.1 = line.segment.field.kind := by
  have known := known_of_headed distinct headed
  rw [Gauge.kindOf, Line.entry, known.found]

private theorem depth_le_of_lines {marker : String}
    (headed : ∀ line ∈ lines, Headed context marker line.segment.field)
    (each : ∀ line ∈ lines, Gauge.depth.ofValue context.registry line.segment.field.kind
      line.shown ≤ room) :
    Gauge.depth.ofEntries context.registry (lines.map Line.entry) ≤ room := by
  apply Gauge.depth_ofEntries_le
  intro entry member
  obtain ⟨line, present, rfl⟩ := List.mem_map.mp member
  rw [kindOf_entry distinct (headed line present)]
  exact each line present

private theorem depth_le_of_drawn {line : Line} (drawn : Drawn context room line) :
    Gauge.depth.ofValue context.registry line.segment.field.kind line.shown ≤ room := by
  induction drawn with
  | scalar isScalar =>
      rw [isScalar, Gauge.ofValue_scalar]
      exact Nat.zero_le _
  | @group room field group front last lines isGroup headed _ inductionHypothesis =>
      have inside := depth_le_of_lines distinct headed inductionHypothesis
      change Gauge.depth.ofValue _ field.kind _ ≤ room + 1
      rw [isGroup]
      exact (Gauge.ofValue_collect_le group _).trans (Nat.add_le_add_right inside 1)

private theorem count_le_of_lines {marker : String}
    (headed : ∀ line ∈ lines, Headed context marker line.segment.field)
    (each : ∀ line ∈ lines, Gauge.count.ofValue context.registry line.segment.field.kind
      line.shown ≤ line.segment.body.length) :
    Gauge.count.ofEntries context.registry (lines.map Line.entry) ≤ (rowBytes lines).length := by
  induction lines with
  | nil =>
      exact Nat.le_refl 0
  | cons line others inductionHypothesis =>
      obtain ⟨firstHeaded, othersHeaded⟩ := List.forall_mem_cons.mp headed
      obtain ⟨first, rest⟩ := List.forall_mem_cons.mp each
      have behind := inductionHypothesis othersHeaded rest
      have positive := List.length_pos_iff.mpr (Header.ne_nil_of_takes firstHeaded.header)
      rw [← kindOf_entry distinct firstHeaded] at first
      have joined : Gauge.count.ofEntries context.registry ((line :: others).map Line.entry) =
          Gauge.count.ofValue context.registry (Gauge.kindOf context.registry line.entry.1)
            line.shown + 1 + Gauge.count.ofEntries context.registry (others.map Line.entry) := rfl
      rw [joined, rowBytes, List.flatMap_cons, List.length_append, Segment.bytes,
        List.length_append]
      rw [rowBytes] at behind
      omega

private theorem count_le_of_drawn {line : Line} (drawn : Drawn context room line) :
    Gauge.count.ofValue context.registry line.segment.field.kind line.shown ≤
      line.segment.body.length := by
  induction drawn with
  | scalar isScalar =>
      rw [isScalar, Gauge.ofValue_scalar]
      exact Nat.zero_le _
  | @group room field group front last lines isGroup headed _ inductionHypothesis =>
      have collected : Gauge.count.ofValue context.registry group.kind _ ≤ _ :=
        Gauge.ofValue_collect_le group (lines.map Line.entry)
      have inside := count_le_of_lines distinct headed inductionHypothesis
      change Gauge.count.ofValue _ field.kind _ ≤ (front ++ (rowBytes lines ++ last)).length
      rw [isGroup, List.length_append, List.length_append]
      calc Gauge.count.ofValue context.registry group.kind (group.collect (lines.map Line.entry))
          ≤ Gauge.count.ofEntries context.registry (lines.map Line.entry) := collected
        _ ≤ (rowBytes lines).length := inside
        _ ≤ front.length + ((rowBytes lines).length + last.length) := by omega

/-- Inside a document that was decoded no more objects and arrays are nested than the
reader follows, and it has no more fields than there were octets. -/
theorem bounds_of_decode {bytes : Bytes} {shown : Json}
    (decoded : decode context bytes = .ok shown) :
    ∃ entries, shown = .object entries ∧
      Gauge.depth.ofEntries context.registry entries ≤ Cursor.maxDepth ∧
      Gauge.count.ofEntries context.registry entries ≤ bytes.length := by
  obtain ⟨after, groupRead⟩ := readGroup_of_decode decoded
  obtain ⟨lines, last, headed, inside, rfl, took⟩ :=
    lines_of_readGroup (draws_readFieldValueAt Cursor.maxDepth) rfl groupRead
  have size : bytes.length = (rowBytes lines).length + last.length + after.rest.length := by
    have whole : bytes = rowBytes lines ++ last ++ after.rest := took.rest
    rw [whole, List.length_append, List.length_append]
  have shallow := depth_le_of_lines distinct headed fun line member =>
    depth_le_of_drawn distinct (inside line member)
  have few := count_le_of_lines distinct headed fun line member =>
    count_le_of_drawn distinct (inside line member)
  refine ⟨_, rfl, (Gauge.ofEntries_kept_le _).trans shallow,
    (Gauge.ofEntries_kept_le _).trans ?_⟩
  omega

end Bounds

end Object

end LedgerWire
