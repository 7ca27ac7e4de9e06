import LedgerWire.Proofs.Consumption
import LedgerWire.Proofs.Documents

/-!
# Complete framings

In a complete framing every object and array below the top is closed by its own
end mark. Such a row of fields is decoded whole. Whatever else is decoded is read
as one: what ends inside objects and arrays as if their end marks followed, and
what stands behind an end mark at the top is not read.
-/

namespace LedgerWire.Object

/-! ## Groups of fields -/

/-- What a field holds that holds other fields in a row. -/
inductive Group
  | object
  | array
  deriving DecidableEq, Repr

namespace Group

def kind : Group → FieldKind
  | .object => .object
  | .array => .array

/-- The name of the field that ends the row. -/
def marker : Group → String
  | .object => "ObjectEndMarker"
  | .array => "ArrayEndMarker"

/-- The octet that ends the row. -/
def mark : Group → UInt8
  | .object => objectEnd
  | .array => arrayEnd

/-- What is shown for the row. -/
def collect : Group → List (String × Json) → Json
  | .object, entries => Json.ofEntries entries
  | .array, entries => .array (entries.map fun entry => .object [entry])

end Group

/-- The end marks are the headers of the fields with their names, and of no other
fields. -/
structure Marked (registry : Registry) : Prop where
  present : ∀ group : Group, ∃ field : Field, field.name = group.marker ∧
    field.header = [group.mark] ∧ Takes (Header.readField registry) field.header field
  alone : ∀ (group : Group) {field : Field}, field ∈ registry.fields →
    field.name = group.marker → field.header = [group.mark]

private theorem bundled_marks (group : Group) :
    ∃ field, Registry.bundled.field? group.marker = some field ∧ field.header = [group.mark] := by
  cases group with
  | object =>
      exact Registry.bundled_sound.objectEnd
  | array =>
      obtain ⟨field, found, header, _⟩ := Registry.bundled_sound.arrayEnd
      exact ⟨field, found, header⟩

theorem bundled_marked : Marked Registry.bundled where
  present := by
    intro group
    obtain ⟨field, found, header⟩ := bundled_marks group
    obtain ⟨member, named⟩ := Registry.mem_of_field? found
    refine ⟨field, named, header, takes_header Context.standard_sound member ?_⟩
    rw [header]
    exact List.cons_ne_nil _ _
  alone := by
    intro group field member named
    obtain ⟨last, found, header⟩ := bundled_marks group
    obtain ⟨lastMember, lastNamed⟩ := Registry.mem_of_field? found
    rw [← List.inj_on_of_nodup_map Registry.bundled_distinct.names lastMember member
      (lastNamed.trans named.symm)]
    exact header

/-! ## Framings -/

/-- A field with its octets, and what is shown for its value. -/
structure Line where
  segment : Segment
  shown : Json

def Line.entry (line : Line) : String × Json := (line.segment.field.name, line.shown)

def rowBytes (lines : List Line) : Bytes := lines.flatMap fun line => line.segment.bytes

variable (context : Context)

/-- A field that its header leads to, and that does not end the row. -/
structure Headed (marker : String) (field : Field) : Prop where
  header : Takes (Header.readField context.registry) field.header field
  unmarked : field.name ≠ marker

/-- A field is framed completely in so much room for groups: its value is read from
just its octets, or it is a group with each line framed and its end mark behind. -/
inductive Framed : (room : Nat) → Line → Prop
  | scalar {room : Nat} {field : Field} {kind : ScalarKind} {front octets : Bytes}
      {size : Option Nat} {value : Scalar} {shown : Json}
      (isScalar : field.kind = .scalar kind) (sized : Takes (readSize field) front size)
      (taken : Takes (Scalar.read size kind) octets value)
      (shows : value.toJson context = .ok shown) :
      Framed room ⟨⟨field, front ++ octets⟩, shown⟩
  | group {room : Nat} {field : Field} {group : Group} {front : Bytes} {size : Option Nat}
      {lines : List Line} (isGroup : field.kind = group.kind)
      (sized : Takes (readSize field) front size)
      (headed : ∀ line ∈ lines, Headed context group.marker line.segment.field)
      (inside : ∀ line ∈ lines, Framed room line) :
      Framed (room + 1)
        ⟨⟨field, front ++ (rowBytes lines ++ [group.mark])⟩, group.collect (lines.map Line.entry)⟩

/-- Lines of a group without its end mark. -/
structure Row (room : Nat) (marker : String) (lines : List Line) : Prop where
  headed : ∀ line ∈ lines, Headed context marker line.segment.field
  inside : ∀ line ∈ lines, Framed context room line

variable {context}

/-! ## Complete framings are read -/

/-- Reads a group up to its end mark. -/
def readGroup (context : Context) (readValue : Field → Read Json) (group : Group) : Read Json := do
  let entries ← readFields context readValue group.marker (← get).remaining
  return group.collect entries

theorem readFieldValueWith_group {group : Group} {field : Field} (isGroup : field.kind = group.kind)
    (readValue : Field → Read Json) :
    readFieldValueWith context readValue field =
      readSize field >>= fun _ => Read.nested (readGroup context readValue group) := by
  rw [readFieldValueWith, isGroup]
  cases group with
  | object =>
      rfl
  | array =>
      rfl

theorem readFieldValueWith_scalar {kind : ScalarKind} {field : Field}
    (isScalar : field.kind = .scalar kind) (readValue : Field → Read Json) :
    readFieldValueWith context readValue field =
      readSize field >>= fun size => Scalar.read size kind >>= fun value =>
        match value.toJson context with
        | .ok shown => pure shown
        | .error fault => throw fault := by
  rewrite [readFieldValueWith, isScalar]
  rfl

section Reading

variable {room : Nat} {marker : String} {lines : List Line}

private theorem readsSegments_of_row
    (headed : ∀ line ∈ lines, Headed context marker line.segment.field)
    (inside : ∀ line ∈ lines, Reads room (readFieldValueAt context room line.segment.field)
      line.segment.body line.shown 0) :
    List.Forall₂ (fun part one => one.field = part.1 ∧
      ReadsSegment context room (readFieldValueAt context room) marker part.1 one.body part.2 0)
      (lines.map fun line => (line.segment.field, line.shown)) (lines.map Line.segment) := by
  rw [List.forall₂_map_left_iff, List.forall₂_map_right_iff, List.forall₂_same]
  intro line member
  have header := (headed line member).header
  exact ⟨rfl, Header.ne_nil_of_takes header, header, (headed line member).unmarked,
    inside line member⟩

private theorem greatest_zeros {α : Type} (items : List α) :
    greatest (items.map fun _ => 0) = 0 := by
  apply Nat.le_zero.mp
  apply greatest_le_iff.mpr
  simp

private theorem reads_group (marked : Marked context.registry) {group : Group}
    (headed : ∀ line ∈ lines, Headed context group.marker line.segment.field)
    (inside : ∀ line ∈ lines, Reads room (readFieldValueAt context room line.segment.field)
      line.segment.body line.shown 0) :
    Reads room (readGroup context (readFieldValueAt context room) group)
      (rowBytes lines ++ [group.mark]) (group.collect (lines.map Line.entry)) 0 := by
  obtain ⟨last, named, lastHeader, taken⟩ := marked.present group
  have each := readsSegments_of_row headed inside
  have row : ∀ left, (rowBytes lines ++ [group.mark]).length ≤ left →
      Reads room (readFields context (readFieldValueAt context room) group.marker left >>=
          fun entries => pure (group.collect entries))
        (rowBytes lines ++ [group.mark]) (group.collect (lines.map Line.entry)) 0 := by
    intro left enough
    rw [rowBytes, ← List.flatMap_map, ← lastHeader] at enough
    have whole := reads_readFields each named (Header.ne_nil_of_takes taken) taken enough
    rw [greatest_zeros, List.flatMap_map, lastHeader, List.map_map] at whole
    exact whole.goOn fun entries => pure (group.collect entries)
  exact Runs.remaining row

/-- What is framed in some room is read there, whatever follows. -/
theorem reads_of_framed (marked : Marked context.registry) {line : Line}
    (framed : Framed context room line) :
    Reads room (readFieldValueAt context room line.segment.field) line.segment.body line.shown
      0 := by
  induction framed with
  | scalar isScalar sized taken shows =>
      apply Takes.reads
      rw [readFieldValueAt_eq, readFieldValueWith_scalar isScalar]
      apply sized.bind
      apply taken.bind_pure
      rw [shows]
  | @group room field group front size lines isGroup sized headed _ inductionHypothesis =>
      rw [readFieldValueAt_eq, readFieldValueWith_group isGroup]
      apply Runs.behind sized
      have nested : Reads (room + 1) (Read.nested
          (readGroup context (readFieldValueAt context room) group))
          (rowBytes lines ++ [group.mark]) (group.collect (lines.map Line.entry)) 1 := by
        refine Runs.nested fun inner same => ?_
        cases same
        exact reads_group marked headed inductionHypothesis
      exact ⟨fun _ => nested.accepts (by omega), fun impossible => absurd impossible (by omega)⟩

/-- A complete framing is decoded. -/
theorem decode_of_row (marked : Marked context.registry)
    (row : Row context Cursor.maxDepth "ObjectEndMarker" lines) :
    decode context (rowBytes lines) = .ok (Json.ofEntries (lines.map Line.entry)) := by
  have each := readsSegments_of_row row.headed fun line member =>
    reads_of_framed marked (row.inside line member)
  have few : (lines.map Line.segment).length ≤ (rowBytes lines).length := by
    have headers : ∀ one ∈ lines.map Line.segment, one.field.header ≠ [] := by
      intro one member
      obtain ⟨line, present, rfl⟩ := List.mem_map.mp member
      exact Header.ne_nil_of_takes (row.headed line present).header
    have bound := length_le_bytes headers
    rwa [List.flatMap_map] at bound
  obtain ⟨fuel, enough⟩ := Nat.exists_eq_add_of_le few
  have accepted := (runs_readFields each fuel).accepts (by rw [greatest_zeros]; omega) 0 []
  rw [← enough, List.flatMap_map, List.append_nil, List.map_map] at accepted
  have fields : readFields context (readFieldValueAt context Cursor.maxDepth) "ObjectEndMarker"
      (rowBytes lines).length ⟨0, rowBytes lines, Cursor.maxDepth⟩ =
        .ok (lines.map Line.entry) ⟨0 + (rowBytes lines).length, [], Cursor.maxDepth⟩ := by
    rw [rowBytes] at accepted ⊢
    rw [accepted]
    change EStateM.map _ _ _ = _
    rw [EStateM.map, readFields_end]
    exact congrArg (EStateM.Result.ok · _) (List.append_nil _)
  rw [decode, Read.ofBytes, read_start, Read.bind_of_ok fields]
  rfl

end Reading

/-! ## What is read is framed -/

/-- What was taken for a field's value, with the end marks of the groups that were
open when the octets ended, is framed completely. -/
inductive Accounted (context : Context) (room : Nat) (field : Field) (before : Cursor)
    (shown : Json) (after : Cursor) : Prop
  | intro {body : Bytes} {missing : List Group} (took : Took before body after)
      (exhausted : missing ≠ [] → after.rest = [])
      (framed : Framed context room ⟨⟨field, body ++ missing.map Group.mark⟩, shown⟩)

private theorem Accounted.complete {room : Nat} {field : Field} {before after : Cursor}
    {shown : Json} {body : Bytes} (took : Took before body after)
    (framed : Framed context room ⟨⟨field, body⟩, shown⟩) :
    Accounted context room field before shown after := by
  have whole : body ++ ([] : List Group).map Group.mark = body := List.append_nil body
  rw [← whole] at framed
  exact Accounted.intro took (absurd rfl) framed

/-- How the reading of a row ended: with an end mark behind its octets, or with the
input. In that case end marks inside may be missing. -/
inductive Ended (group : Group) (row : Bytes) (before after : Cursor) : Prop
  | marked (took : Took before (row ++ [group.mark]) after)
  | exhausted {taken : Bytes} {missing : List Group} (took : Took before taken after)
      (ends : after.rest = []) (completed : taken ++ missing.map Group.mark = row)

/-- With nothing left the reading ends before any line. -/
theorem Ended.nothing (group : Group) {cursor : Cursor} (atEnd : cursor.rest = []) :
    Ended group (rowBytes []) cursor cursor := by
  have completed : ([] : Bytes) ++ ([] : List Group).map Group.mark = rowBytes [] := rfl
  exact Ended.exhausted (Took.refl cursor) atEnd completed

theorem Ended.behind {group : Group} {left right : Bytes} {before middle after : Cursor}
    (took : Took before left middle) (ended : Ended group right middle after) :
    Ended group (left ++ right) before after := by
  cases ended with
  | marked others =>
      apply Ended.marked
      rw [List.append_assoc]
      exact took.trans others
  | exhausted others ends completed =>
      apply Ended.exhausted (took.trans others) ends
      rw [List.append_assoc, completed]

theorem Row.cons {room : Nat} {marker : String} {line : Line} {lines : List Line}
    (headed : Headed context marker line.segment.field) (framed : Framed context room line)
    (others : Row context room marker lines) : Row context room marker (line :: lines) where
  headed := List.forall_mem_cons.mpr ⟨headed, others.headed⟩
  inside := List.forall_mem_cons.mpr ⟨framed, others.inside⟩

theorem Row.nil (context : Context) (room : Nat) (marker : String) :
    Row context room marker [] where
  headed := by simp
  inside := by simp

section Inversion

variable {room : Nat} {readValue : Field → Read Json} {marker : String} {before after : Cursor}

/-- What one round can do: nothing is left, the end mark is read, or one more field. -/
theorem readFields_succ_eq_ok {fuel : Nat} {entries : List (String × Json)}
    (succeeded : readFields context readValue marker (fuel + 1) before = .ok entries after) :
    (before.rest = [] ∧ entries = [] ∧ after = before) ∨
    (∃ field ∈ context.registry.fields, field.name = marker ∧ entries = [] ∧
      Took before field.header after) ∨
    ∃ field middle shown second others, Headed context marker field ∧
      Took before field.header middle ∧ readValue field middle = .ok shown second ∧
      readFields context readValue marker fuel second = .ok others after ∧
      entries = (field.name, shown) :: others := by
  have seen : Read.isEnd before = .ok before.rest.isEmpty before := rfl
  rw [readFields_succ, Read.bind_of_ok seen] at succeeded
  by_cases atEnd : before.rest = []
  · rw [atEnd, List.isEmpty_nil, if_pos rfl] at succeeded
    obtain ⟨rfl, rfl⟩ := Read.pure_eq_ok.mp succeeded
    exact .inl ⟨atEnd, rfl, rfl⟩
  · rw [List.isEmpty_eq_false_iff.mpr atEnd, if_neg (by decide)] at succeeded
    obtain ⟨field, middle, headerRead, rest⟩ := Read.bind_eq_ok.mp succeeded
    obtain ⟨took, member, header⟩ := Header.readField_eq_ok headerRead
    by_cases isMark : field.name = marker
    · rw [if_pos isMark] at rest
      obtain ⟨rfl, rfl⟩ := Read.pure_eq_ok.mp rest
      exact .inr (.inl ⟨field, member, isMark, rfl, took⟩)
    · rw [if_neg isMark] at rest
      obtain ⟨shown, second, valueRead, rest⟩ := Read.bind_eq_ok.mp rest
      rw [map_eq_pure_bind] at rest
      obtain ⟨others, last, othersRead, rest⟩ := Read.bind_eq_ok.mp rest
      obtain ⟨rfl, rfl⟩ := Read.pure_eq_ok.mp rest
      exact .inr (.inr ⟨field, middle, shown, second, others, ⟨header, isMark⟩, took, valueRead,
        othersRead, rfl⟩)

/-- The fields that were read in a row are framed, each in the octets of its line. -/
theorem readFields_eq_ok (marked : Marked context.registry) {group : Group} {fuel : Nat}
    {entries : List (String × Json)}
    (values : ∀ field before shown after, before.levels = room →
      readValue field before = .ok shown after →
        Accounted context room field before shown after)
    (levels : before.levels = room) (enough : before.rest.length ≤ fuel)
    (succeeded : readFields context readValue group.marker fuel before = .ok entries after) :
    ∃ lines, Row context room group.marker lines ∧ entries = lines.map Line.entry ∧
      Ended group (rowBytes lines) before after := by
  induction fuel generalizing before entries with
  | zero =>
      obtain ⟨rfl, rfl⟩ := Read.pure_eq_ok.mp succeeded
      have atEnd : before.rest = [] := List.eq_nil_of_length_eq_zero (by omega)
      exact ⟨[], Row.nil _ _ _, rfl, Ended.nothing group atEnd⟩
  | succ fuel inductionHypothesis =>
      rcases readFields_succ_eq_ok succeeded with ⟨atEnd, rfl, rfl⟩ |
        ⟨field, member, isMark, rfl, took⟩ |
        ⟨field, middle, shown, second, others, headed, tookHeader, valueRead, othersRead, rfl⟩
      · exact ⟨[], Row.nil _ _ _, rfl, Ended.nothing group atEnd⟩
      · rw [marked.alone group member isMark] at took
        exact ⟨[], Row.nil _ _ _, rfl, .marked took⟩
      · obtain @⟨body, missing, tookBody, exhausted, framed⟩ :=
          values field middle shown second (tookHeader.levels.trans levels) valueRead
        have took := tookHeader.trans tookBody
        by_cases whole : missing = []
        · rw [whole, List.map_nil, List.append_nil] at framed
          have fewer : second.rest.length ≤ fuel := by
            have positive := List.length_pos_iff.mpr (Header.ne_nil_of_takes headed.header)
            rw [took.rest, List.length_append, List.length_append] at enough
            omega
          obtain ⟨lines, row, rfl, ended⟩ :=
            inductionHypothesis (took.levels.trans levels) fewer othersRead
          exact ⟨_, Row.cons headed framed row, rfl, Ended.behind took ended⟩
        · obtain ⟨position, rest, depth⟩ := second
          cases exhausted whole
          rw [readFields_end] at othersRead
          cases othersRead
          refine ⟨_, Row.cons headed framed (Row.nil _ _ _), rfl, ?_⟩
          have completed : field.header ++ body ++ missing.map Group.mark =
              rowBytes [⟨⟨field, body ++ missing.map Group.mark⟩, shown⟩] := by
            simp [rowBytes, Segment.bytes]
          exact Ended.exhausted took rfl completed

theorem readGroup_eq_ok (marked : Marked context.registry) {group : Group} {shown : Json}
    (values : ∀ field before shown after, before.levels = room →
      readValue field before = .ok shown after →
        Accounted context room field before shown after)
    (levels : before.levels = room)
    (succeeded : readGroup context readValue group before = .ok shown after) :
    ∃ lines, Row context room group.marker lines ∧ shown = group.collect (lines.map Line.entry) ∧
      Ended group (rowBytes lines) before after := by
  rw [readGroup, Read.bind_of_ok (Read.get_apply _)] at succeeded
  obtain ⟨entries, middle, fields, last⟩ := Read.bind_eq_ok.mp succeeded
  obtain ⟨rfl, rfl⟩ := Read.pure_eq_ok.mp last
  obtain ⟨lines, row, rfl, ended⟩ :=
    readFields_eq_ok marked values levels (Nat.le_refl _) fields
  exact ⟨lines, row, rfl, ended⟩

/-- A group that was read is framed, or it is once its missing end marks and its own
are put behind. -/
theorem accounted_of_ended {group : Group} {field : Field} {front : Bytes} {size : Option Nat}
    {lines : List Line} {middle : Cursor} (isGroup : field.kind = group.kind)
    (tookFront : Took before front middle) (sized : Takes (readSize field) front size)
    (row : Row context room group.marker lines)
    (ended : Ended group (rowBytes lines) middle after) :
    Accounted context (room + 1) field before (group.collect (lines.map Line.entry)) after := by
  have framed := Framed.group isGroup sized row.headed row.inside
  cases ended with
  | marked took =>
      exact Accounted.complete (tookFront.trans took) framed
  | @exhausted taken missing took ends completed =>
      have whole : front ++ taken ++ (missing ++ [group]).map Group.mark =
          front ++ (rowBytes lines ++ [group.mark]) := by
        rw [List.map_append, List.append_assoc, ← List.append_assoc taken, completed]
        rfl
      rw [← whole] at framed
      exact Accounted.intro (tookFront.trans took) (fun _ => ends) framed

/-- What is read one level deeper is read all the same. -/
theorem Ended.outside {group : Group} {row : Bytes} {levels : Nat} {inner : Cursor}
    (deeper : before.levels = levels + 1)
    (ended : Ended group row { before with levels } inner) :
    Ended group row before { inner with levels := inner.levels + 1 } := by
  have lift : ∀ {bytes}, Took { before with levels } bytes inner →
      Took before bytes { inner with levels := inner.levels + 1 } := by
    intro bytes took
    refine ⟨took.rest, ?_⟩
    have same : inner.levels = levels := took.levels
    rw [deeper, ← same]
  cases ended with
  | marked took =>
      exact Ended.marked (lift took)
  | exhausted took ends completed =>
      exact Ended.exhausted (lift took) ends completed

theorem nested_eq_ok {α : Type} {body : Read α} {value : α}
    (succeeded : Read.nested body before = .ok value after) :
    ∃ levels inner, before.levels = levels + 1 ∧
      body { before with levels } = .ok value inner ∧
      after = { inner with levels := inner.levels + 1 } := by
  unfold Read.nested at succeeded
  split at succeeded
  · cases succeeded
  · rename_i levels deeper
    split at succeeded
    · rename_i result inner done
      cases succeeded
      exact ⟨levels, inner, deeper, done, rfl⟩
    · cases succeeded

variable {field : Field} {shown : Json}

private theorem accounted_scalar {kind : ScalarKind} (isScalar : field.kind = .scalar kind)
    (succeeded : readFieldValueWith context readValue field before = .ok shown after) :
    Accounted context room field before shown after := by
  rw [readFieldValueWith_scalar isScalar] at succeeded
  obtain ⟨size, middle, sizeRead, rest⟩ := Read.bind_eq_ok.mp succeeded
  obtain ⟨value, last, valueRead, rest⟩ := Read.bind_eq_ok.mp rest
  obtain ⟨front, tookFront, sized⟩ := exact_readSize field _ _ _ sizeRead
  obtain ⟨octets, took, taken⟩ := Scalar.exact_read size kind _ _ _ valueRead
  cases shows : value.toJson context with
  | error fault =>
      rw [shows] at rest
      cases rest
  | ok given =>
      rw [shows] at rest
      obtain ⟨rfl, rfl⟩ := Read.pure_eq_ok.mp rest
      exact Accounted.complete (tookFront.trans took) (Framed.scalar isScalar sized taken shows)

private theorem accounted_group (marked : Marked context.registry) {group : Group}
    (isGroup : field.kind = group.kind)
    (values : ∀ inner, room = inner + 1 → ∀ field before shown after, before.levels = inner →
      readValue field before = .ok shown after →
        Accounted context inner field before shown after)
    (levels : before.levels = room)
    (succeeded : readFieldValueWith context readValue field before = .ok shown after) :
    Accounted context room field before shown after := by
  rw [readFieldValueWith_group isGroup] at succeeded
  obtain ⟨size, middle, sizeRead, rest⟩ := Read.bind_eq_ok.mp succeeded
  obtain ⟨front, tookFront, sized⟩ := exact_readSize field _ _ _ sizeRead
  obtain ⟨inner, last, deeper, groupRead, rfl⟩ := nested_eq_ok rest
  have roomy : room = inner + 1 := levels.symm.trans (tookFront.levels.symm.trans deeper)
  obtain ⟨lines, row, rfl, ended⟩ := readGroup_eq_ok marked (values inner roomy) rfl groupRead
  rw [roomy]
  exact accounted_of_ended isGroup tookFront sized row (ended.outside deeper)

private theorem accounted_of_values (marked : Marked context.registry)
    (values : ∀ inner, room = inner + 1 → ∀ field before shown after, before.levels = inner →
      readValue field before = .ok shown after →
        Accounted context inner field before shown after)
    (levels : before.levels = room)
    (succeeded : readFieldValueWith context readValue field before = .ok shown after) :
    Accounted context room field before shown after := by
  cases kind : field.kind with
  | scalar _ =>
      exact accounted_scalar kind succeeded
  | object =>
      have isGroup : field.kind = Group.object.kind := kind
      exact accounted_group marked isGroup values levels succeeded
  | array =>
      have isGroup : field.kind = Group.array.kind := kind
      exact accounted_group marked isGroup values levels succeeded
  | unsupported =>
      rw [readFieldValueWith, kind] at succeeded
      obtain ⟨_, _, _, impossible⟩ := Read.bind_eq_ok.mp succeeded
      cases impossible

/-- Whatever value is read, its octets are accounted for. -/
theorem accounted (marked : Marked context.registry) (levels : before.levels = room)
    (succeeded : readFieldValueAt context room field before = .ok shown after) :
    Accounted context room field before shown after := by
  induction room generalizing field before shown after with
  | zero =>
      apply accounted_of_values marked _ levels succeeded
      intro inner impossible
      cases impossible
  | succ room inductionHypothesis =>
      apply accounted_of_values marked _ levels succeeded
      intro inner same field before shown after levels succeeded
      cases same
      exact inductionHypothesis levels succeeded

end Inversion

/-! ## Documents -/

/-- What is decoded was read as a group. -/
theorem readGroup_of_decode {bytes : Bytes} {shown : Json}
    (decoded : decode context bytes = .ok shown) :
    ∃ after, readGroup context (readFieldValueAt context Cursor.maxDepth) .object
      (Cursor.start bytes) = .ok shown after := by
  cases result : read context (Cursor.start bytes) with
  | error fault after =>
      rw [decode, Read.ofBytes, result] at decoded
      cases decoded
  | ok value after =>
      rw [decode, Read.ofBytes, result] at decoded
      cases decoded
      exact ⟨after, result⟩

/-- The fields that were decoded are framed. -/
theorem row_of_decode (marked : Marked context.registry) {bytes : Bytes} {shown : Json}
    (decoded : decode context bytes = .ok shown) :
    ∃ lines after, Row context Cursor.maxDepth "ObjectEndMarker" lines ∧
      shown = Json.ofEntries (lines.map Line.entry) ∧
      Ended .object (rowBytes lines) (Cursor.start bytes) after := by
  have values : ∀ field before shown after, before.levels = Cursor.maxDepth →
      readFieldValueAt context Cursor.maxDepth field before = .ok shown after →
        Accounted context Cursor.maxDepth field before shown after :=
    fun _ _ _ _ levels => accounted marked levels
  obtain ⟨after, groupRead⟩ := readGroup_of_decode decoded
  obtain ⟨lines, row, same, ended⟩ := readGroup_eq_ok marked values rfl groupRead
  exact ⟨lines, after, row, same, ended⟩

/-- Octets that are decoded are a complete framing once the end marks of the groups
that are open at their end are put behind, or they are one with an end mark for the
document itself behind, and anything behind that. The framing alone is decoded as
the same. -/
theorem framing_of_decode (marked : Marked context.registry) {bytes : Bytes} {shown : Json}
    (decoded : decode context bytes = .ok shown) :
    ∃ lines, Row context Cursor.maxDepth "ObjectEndMarker" lines ∧
      shown = Json.ofEntries (lines.map Line.entry) ∧
      decode context (rowBytes lines) = .ok shown ∧
      ((∃ missing : List Group, bytes ++ missing.map Group.mark = rowBytes lines) ∨
        ∃ behind, bytes = rowBytes lines ++ objectEnd :: behind) := by
  obtain ⟨lines, after, row, rfl, ended⟩ := row_of_decode marked decoded
  refine ⟨lines, row, rfl, decode_of_row marked row, ?_⟩
  cases ended with
  | marked took =>
      refine .inr ⟨after.rest, ?_⟩
      have whole : bytes = rowBytes lines ++ [objectEnd] ++ after.rest := took.rest
      rw [whole, List.append_assoc]
      rfl
  | @exhausted taken missing took ends completed =>
      refine .inl ⟨missing, ?_⟩
      have whole : bytes = taken ++ after.rest := took.rest
      rw [whole, ends, List.append_nil, completed]

/-- A memo that is left open is decoded as one that is closed. -/
theorem framing_of_decode_memo :
    Marked Registry.bundled ∧
      decode Context.standard [0xEA] = .ok (.object [("Memo", .object [])]) ∧
      ∃ lines, Row Context.standard Cursor.maxDepth "ObjectEndMarker" lines ∧
        decode Context.standard (rowBytes lines) = .ok (.object [("Memo", .object [])]) := by
  have decoded : decode Context.standard [0xEA] = .ok (.object [("Memo", .object [])]) := rfl
  have marked : Marked Context.standard.registry := bundled_marked
  obtain ⟨lines, row, _, whole, _⟩ := framing_of_decode marked decoded
  exact ⟨bundled_marked, decoded, lines, row, whole⟩

/-- The first line of a complete framing begins with its header. -/
theorem first_of_row {room : Nat} {marker : String} {lines : List Line} {first : UInt8}
    {rest : Bytes} (row : Row context room marker lines) (same : rowBytes lines = first :: rest) :
    ∃ line after, Headed context marker line.segment.field ∧ Framed context room line ∧
      line.segment.bytes ++ after = first :: rest ∧
      ∃ cursor, Header.readField context.registry ⟨0, first :: rest, 0⟩ =
        .ok line.segment.field cursor := by
  cases lines with
  | nil =>
      cases same
  | cons line others =>
      have headed := row.headed line List.mem_cons_self
      rw [rowBytes, List.flatMap_cons] at same
      refine ⟨line, rowBytes others, headed, row.inside line List.mem_cons_self, same, ?_⟩
      have read := headed.header 0 (line.segment.body ++ rowBytes others) 0
      rw [← List.append_assoc] at read
      exact ⟨_, same ▸ read⟩

/-- The field whose header is the end mark of arrays. -/
def arrayEndField : Field := ⟨"ArrayEndMarker", "STArray", 15, 1, false, true, true⟩

/-- Outside of an array the end mark of arrays opens one. -/
theorem row_of_arrayEnd (room : Nat) :
    Row Context.standard (room + 1) "ObjectEndMarker"
      [⟨⟨arrayEndField, [arrayEnd]⟩, .array []⟩] := by
  have found : Registry.bundled.field? "ArrayEndMarker" = some arrayEndField := rfl
  have header : Takes (Header.readField Registry.bundled) arrayEndField.header arrayEndField :=
    takes_header Context.standard_sound (Registry.mem_of_field? found).1 (by decide)
  have sized : Takes (readSize arrayEndField) [] none := Takes.pure none
  have framed : Framed Context.standard (room + 1) ⟨⟨arrayEndField, [arrayEnd]⟩, .array []⟩ :=
    @Framed.group _ room arrayEndField .array [] none [] rfl sized (by simp) (by simp)
  exact Row.cons ⟨header, by decide⟩ framed (Row.nil _ _ _)

/-- A memo without its end, and an end mark in front of another octet, are decoded, and
neither is a complete framing. The end mark of arrays, twice, is one, with the first of
them for a field at the top. -/
theorem decoded_without_framing :
    (decode Context.standard [0xEA] = .ok (.object [("Memo", .object [])]) ∧
      ¬ ∃ lines, Row Context.standard Cursor.maxDepth "ObjectEndMarker" lines ∧
        rowBytes lines = [0xEA]) ∧
    (decode Context.standard [0xE1, 0x22] = .ok (.object []) ∧
      ¬ ∃ lines, Row Context.standard Cursor.maxDepth "ObjectEndMarker" lines ∧
        rowBytes lines = [0xE1, 0x22]) ∧
    decode Context.standard [0xF1, 0xF1] = .ok (.object [("ArrayEndMarker", .array [])]) ∧
      ∃ line, Row Context.standard Cursor.maxDepth "ObjectEndMarker" [line] ∧
        rowBytes [line] = [0xF1, 0xF1] ∧ line.segment.field.name = Group.array.marker := by
  refine ⟨⟨rfl, ?_⟩, ⟨rfl, ?_⟩, rfl, _, row_of_arrayEnd 63, by decide, rfl⟩
  · rintro ⟨lines, row, same⟩
    obtain ⟨⟨⟨field, body⟩, shown⟩, after, _, framed, octets, cursor, read⟩ :=
      first_of_row row same
    obtain ⟨memo, place, opened, isObject, header⟩ : ∃ memo place,
        Header.readField Context.standard.registry ⟨0, [0xEA], 0⟩ = .ok memo place ∧
          memo.kind = .object ∧ memo.header = [0xEA] :=
      ⟨_, _, rfl, rfl, rfl⟩
    cases opened.symm.trans read
    have nothingBehind : body = [] := by
      rw [Segment.bytes, header, List.append_assoc, List.singleton_append] at octets
      exact (List.append_eq_nil_iff.mp (List.cons.inj octets).2).1
    cases framed with
    | scalar isScalar =>
        cases isObject.symm.trans isScalar
    | group =>
        simp at nothingBehind
  · rintro ⟨lines, row, same⟩
    obtain ⟨line, after, headed, _, _, cursor, read⟩ := first_of_row row same
    obtain ⟨ending, place, ended, named⟩ : ∃ ending place,
        Header.readField Context.standard.registry ⟨0, [0xE1, 0x22], 0⟩ = .ok ending place ∧
          ending.name = "ObjectEndMarker" :=
      ⟨_, _, rfl, rfl⟩
    rw [ended] at read
    cases read
    exact headed.unmarked named

end LedgerWire.Object
