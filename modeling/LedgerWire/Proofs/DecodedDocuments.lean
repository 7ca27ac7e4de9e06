import LedgerWire.Proofs.CompleteFraming
import LedgerWire.Proofs.DecodedScalars
import LedgerWire.Proofs.DistinctKeys
import LedgerWire.Proofs.Loading

/-!
# Documents that were decoded

Of the documents there are, decoding shows only some: each object has the names of
fields as its keys, in ascending order, each item of an array is an object with one
field, and no scalar is shown that was not read.
-/

namespace LedgerWire

/-! ## Objects from entries -/

namespace Json

/-- An object keeps some of the entries that it is made from. -/
theorem ofEntries_eq_object (entries : List (String × Json)) :
    ∃ kept, ofEntries entries = .object kept ∧ Ascending kept ∧
      ∀ entry ∈ kept, entry ∈ entries := by
  induction entries with
  | nil =>
      exact ⟨[], rfl, .nil, by simp⟩
  | cons first rest inductionHypothesis =>
      obtain ⟨kept, made, ascending, origin⟩ := inductionHypothesis
      refine ⟨addEntry first.1 first.2 kept, ?_, ascending_addEntry ascending _ _, ?_⟩
      · rw [ofEntries, Json.object.injEq] at made ⊢
        rw [List.foldr_cons, made]
      · intro entry member
        rcases key_of_mem_addEntry member with rfl | present
        · exact List.mem_cons_self
        · exact List.mem_cons_of_mem first (origin entry present)

/-- Entries in ascending order are kept as they are. -/
theorem ofEntries_of_ascending {entries : List (String × Json)} (ascending : Ascending entries) :
    ofEntries entries = .object entries := by
  rw [ofEntries_eq (nodup_of_ascending ascending)]
  congr 1
  apply List.Pairwise.insertionSort_eq
  apply (List.pairwise_map.mp ascending).imp
  intro left right smaller
  exact String.not_lt.mp (String.lt_asymm smaller)

end Json

/-- A field is found by its name where names are distinct. -/
theorem Registry.field?_of_distinct {registry : Registry} (distinct : Distinct registry.fields)
    {field : Field} (member : field ∈ registry.fields) :
    registry.field? field.name = some field := by
  cases found : registry.field? field.name with
  | none =>
      have missed := List.find?_eq_none.mp found field member
      simp at missed
  | some other =>
      obtain ⟨otherMember, named⟩ := mem_of_field? found
      rw [List.inj_on_of_nodup_map distinct.names otherMember member named]

namespace Object

variable (context : Context)

/-! ## What decoding shows -/

/-- A field that its name leads to as well as its header, and that is not the end of
the row. -/
structure Known (marker : String) (field : Field) : Prop where
  member : field ∈ context.registry.fields
  found : context.registry.field? field.name = some field
  headed : field.header ≠ []
  unmarked : field.name ≠ marker

/-- The entries of values under the names of their fields. -/
abbrev entriesOf (parts : List (Field × Json)) : List (String × Json) :=
  parts.map fun part => (part.1.name, part.2)

/-- What can be shown for a value of a kind where so many groups may be nested. -/
inductive Shown : (room : Nat) → FieldKind → Json → Prop
  | scalar {room : Nat} {kind : ScalarKind} {value : Scalar} {shown : Json}
      (legible : Scalar.Legible kind value) (shows : value.toJson context = .ok shown) :
      Shown room (.scalar kind) shown
  | object {room : Nat} {parts : List (Field × Json)}
      (known : ∀ part ∈ parts, Known context "ObjectEndMarker" part.1)
      (ascending : Json.Ascending (entriesOf parts))
      (inside : ∀ part ∈ parts, Shown room part.1.kind part.2) :
      Shown (room + 1) .object (.object (entriesOf parts))
  | array {room : Nat} {parts : List (Field × Json)}
      (known : ∀ part ∈ parts, Known context "ArrayEndMarker" part.1)
      (inside : ∀ part ∈ parts, Shown room part.1.kind part.2) :
      Shown (room + 1) .array (.array (parts.map fun part => .object [(part.1.name, part.2)]))

variable {context}

private theorem exists_map_eq {α β : Type} {origin : α → Prop} {image : α → β} {items : List β}
    (each : ∀ item ∈ items, ∃ source, origin source ∧ image source = item) :
    ∃ sources : List α, sources.map image = items ∧ ∀ source ∈ sources, origin source := by
  induction items with
  | nil =>
      exact ⟨[], rfl, by simp⟩
  | cons item rest inductionHypothesis =>
      obtain ⟨source, given, rfl⟩ := each item List.mem_cons_self
      obtain ⟨sources, rfl, others⟩ := inductionHypothesis fun other member =>
        each other (List.mem_cons_of_mem _ member)
      exact ⟨source :: sources, rfl, List.forall_mem_cons.mpr ⟨given, others⟩⟩

section Lines

variable (distinct : Registry.Distinct context.registry.fields) {room : Nat} {lines : List Line}

include distinct

theorem known_of_headed {marker : String} {field : Field} (headed : Headed context marker field) :
    Known context marker field := by
  obtain ⟨_, member, _⟩ := Header.readField_eq_ok (headed.header 0 [] 0)
  exact ⟨member, Registry.field?_of_distinct distinct member,
    Header.ne_nil_of_takes headed.header, headed.unmarked⟩

private theorem shown_of_lines {group : Group}
    (headed : ∀ line ∈ lines, Headed context group.marker line.segment.field)
    (inside : ∀ line ∈ lines, Shown context room line.segment.field.kind line.shown) :
    Shown context (room + 1) group.kind (group.collect (lines.map Line.entry)) := by
  cases group with
  | object =>
      obtain ⟨kept, made, ascending, origin⟩ := Json.ofEntries_eq_object (lines.map Line.entry)
      obtain ⟨parts, rfl, each⟩ : ∃ parts : List (Field × Json), entriesOf parts = kept ∧
            ∀ part ∈ parts, Known context "ObjectEndMarker" part.1 ∧
              Shown context room part.1.kind part.2 := by
        apply exists_map_eq
        intro entry member
        obtain ⟨line, present, rfl⟩ := List.mem_map.mp (origin entry member)
        exact ⟨(line.segment.field, line.shown),
          ⟨known_of_headed distinct (headed line present), inside line present⟩, rfl⟩
      have shown := Shown.object (fun part member => (each part member).1) ascending
        fun part member => (each part member).2
      rw [← made] at shown
      exact shown
  | array =>
      have known : ∀ part ∈ lines.map fun line => (line.segment.field, line.shown),
          Known context "ArrayEndMarker" part.1 := by
        intro part member
        obtain ⟨line, present, rfl⟩ := List.mem_map.mp member
        exact known_of_headed distinct (headed line present)
      have shownInside : ∀ part ∈ lines.map fun line => (line.segment.field, line.shown),
          Shown context room part.1.kind part.2 := by
        intro part member
        obtain ⟨line, present, rfl⟩ := List.mem_map.mp member
        exact inside line present
      have shown := Shown.array known shownInside
      rw [List.map_map] at shown
      rw [Group.collect, List.map_map]
      exact shown

private theorem shown_of_framed {line : Line} (framed : Framed context room line) :
    Shown context room line.segment.field.kind line.shown := by
  induction framed with
  | @scalar room field kind front octets size value shown isScalar sized taken shows =>
      change Shown context room field.kind shown
      rw [isScalar]
      have read := taken 0 [] 0
      exact Shown.scalar (Scalar.legible_of_read read) shows
  | @group room field group front size lines isGroup sized headed inside inductionHypothesis =>
      change Shown context (room + 1) field.kind _
      rw [isGroup]
      exact shown_of_lines distinct headed inductionHypothesis

/-- A document that was decoded is an object whose groups nest no deeper than the
reader follows. -/
theorem shown_of_decode (marked : Marked context.registry) {bytes : Bytes} {shown : Json}
    (decoded : decode context bytes = .ok shown) :
    Shown context (Cursor.maxDepth + 1) .object shown := by
  obtain ⟨lines, _, row, rfl, _⟩ := row_of_decode marked decoded
  have whole : Shown context (Cursor.maxDepth + 1) Group.object.kind
      (Group.object.collect (lines.map Line.entry)) :=
    shown_of_lines distinct row.headed fun line member =>
      shown_of_framed distinct (row.inside line member)
  exact whole

end Lines

end Object

end LedgerWire
