import LedgerWire.Context
import LedgerWire.Object.Segment
import LedgerWire.Proofs.Addresses
import LedgerWire.Proofs.Entries
import LedgerWire.Proofs.Loading
import LedgerWire.Proofs.Scalars

/-!
# The ledger's own registry

What reading back asks of a registry is collected here and checked for the
bundled one.
-/

namespace LedgerWire

/-- Whether an announced length stands in front of the values of a kind. -/
def FieldKind.sized : FieldKind → Bool
  | .scalar kind => kind.sized
  | _ => false

/-- A name that is shown for a code is one of those that have it. -/
theorem EnumTable.mem_of_name? {table : EnumTable} {name : String} {code : Int}
    (shown : table.name? code = some name) : (name, code) ∈ table.entries := by
  obtain ⟨entry, found, rfl⟩ := Option.map_eq_some_iff.mp shown
  have matched : entry.2 = code := by simpa using List.find?_some found
  rw [← matched]
  exact List.mem_of_find?_eq_some found

/-- What reading back asks of a registry. Conditions on a header are asked of the
fields that have one. -/
structure Registry.Sound (registry : Registry) : Prop extends registry.Named where
  located : ∀ {field}, field ∈ registry.fields → field.header ≠ [] →
    registry.fieldAt? field.typeCode field.nth = some field
  positive : ∀ {field}, field ∈ registry.fields → field.header ≠ [] →
    0 < field.typeCode ∧ 0 < field.nth
  framed : ∀ {field}, field ∈ registry.fields → field.header ≠ [] →
    field.lengthPrefixed = field.kind.sized
  account : ∀ {field}, field ∈ registry.fields → field.name = "Account" →
    field.kind = .scalar .account
  nonempty : ∀ {field}, field ∈ registry.fields → field.name ≠ ""
  objectEnd : ∃ field, registry.field? "ObjectEndMarker" = some field ∧
    field.header = [Object.objectEnd]
  arrayEnd : ∃ field, registry.field? "ArrayEndMarker" = some field ∧
    field.header = [Object.arrayEnd] ∧ field.kind ≠ .object
  transactionType : ∃ field, registry.field? "TransactionType" = some field ∧
    field.serialized = true ∧ field.kind = .scalar (.named .transactionType)

/-- What reading back asks of a context. -/
structure Context.Sound (context : Context) : Prop where
  addresses : context.addresses.Distinctive
  registry : context.registry.Sound

namespace Registry

/-! ## Looking up -/

theorem mem_of_field? {registry : Registry} {name : String} {field : Field}
    (found : registry.field? name = some field) : field ∈ registry.fields ∧ field.name = name :=
  ⟨List.mem_of_find?_eq_some found, by simpa using List.find?_some found⟩

/-- A field is found by its codes if no other serialized field has its ordinal. -/
theorem fieldAt?_of_nodup {registry : Registry}
    (distinct : ((registry.fields.filter (·.serialized)).map Field.ordinal).Nodup) {field : Field}
    (member : field ∈ registry.fields) (headed : field.header ≠ []) :
    registry.fieldAt? field.typeCode field.nth = some field := by
  have serialized : field.serialized = true := by
    unfold Field.header at headed
    split at headed
    · rename_i fits
      exact fits.1
    · exact absurd rfl headed
  unfold fieldAt?
  cases found : registry.fields.find? fun other =>
      other.serialized && other.typeCode == field.typeCode && other.nth == field.nth with
  | none =>
      have missed := List.find?_eq_none.mp found field member
      simp [serialized] at missed
  | some other =>
      have matched := List.find?_some found
      simp only [Bool.and_eq_true, beq_iff_eq] at matched
      obtain ⟨⟨otherSerialized, typeCode⟩, nth⟩ := matched
      have same : other.ordinal = field.ordinal := by
        rw [Field.ordinal, Field.ordinal, typeCode, nth]
      have otherMember := List.mem_of_find?_eq_some found
      rw [List.inj_on_of_nodup_map distinct (List.mem_filter.mpr ⟨otherMember, otherSerialized⟩)
        (List.mem_filter.mpr ⟨member, serialized⟩) same]

private theorem code?_of_name? {table : EnumTable} (distinct : (table.entries.map (·.1)).Nodup)
    {code : Int} {name : String} (shown : table.name? code = some name) :
    table.code? name = some code :=
  lookup_of_mem distinct (EnumTable.mem_of_name? shown)

/-! ## The bundled registry -/

/-- Whether each number in its turn finds its bit unset and sets it. -/
def freshBits : (mask : Nat) → List Nat → Bool
  | _, [] => true
  | mask, number :: rest => !mask.testBit number && freshBits (mask ||| 2 ^ number) rest

private theorem nodup_of_freshBits {mask : Nat} {numbers : List Nat}
    (fresh : freshBits mask numbers = true) :
    numbers.Nodup ∧ ∀ number ∈ numbers, mask.testBit number = false := by
  induction numbers generalizing mask with
  | nil =>
      exact ⟨List.nodup_nil, fun number => nofun⟩
  | cons number rest inductionHypothesis =>
      rw [freshBits, Bool.and_eq_true, Bool.not_eq_true'] at fresh
      obtain ⟨nodup, others⟩ := inductionHypothesis fresh.2
      have later : ∀ other ∈ rest, mask.testBit other = false ∧ number ≠ other := by
        intro other member
        have unset := others other member
        rwa [Nat.testBit_or, Bool.or_eq_false_iff, Nat.testBit_two_pow, decide_eq_false_iff_not]
          at unset
      constructor
      · exact List.nodup_cons.mpr ⟨fun member => (later number member).2 rfl, nodup⟩
      · exact List.forall_mem_cons.mpr ⟨fresh.1, fun other member => (later other member).1⟩

/-- A remainder of the number that the octets of a name spell tells names apart. -/
def nameCode (name : String) : Nat := Bytes.toNat (Bytes.ofText name) % 1048573

private theorem nodup_names_of_freshBits {α : Type} {items : List α} {name : α → String}
    (fresh : freshBits 0 (items.map fun item => nameCode (name item)) = true) :
    (items.map name).Nodup := by
  have codes := (nodup_of_freshBits fresh).1
  rw [← Function.comp_def nameCode, ← List.map_map] at codes
  exact codes.of_map

/-- One evaluation for all that is asked of the whole registry. -/
theorem bundled_checked :
    freshBits 0 (bundled.fields.map fun field => nameCode field.name) = true ∧
    freshBits 0 ((bundled.fields.filter (·.serialized)).map Field.ordinal) = true ∧
    (∀ table ∈ [EnumKind.transactionType, .ledgerEntryType, .transactionResult],
      freshBits 0 ((bundled.table table).entries.map fun entry => nameCode entry.1) = true ∧
        ∀ entry ∈ (bundled.table table).entries, (Bytes.ofText entry.1).length < 47) ∧
    ∀ field ∈ bundled.fields,
      (field.header ≠ [] → (0 < field.typeCode ∧ 0 < field.nth) ∧
        field.lengthPrefixed = field.kind.sized) ∧
      (field.name = "Account" → field.kind = .scalar .account) ∧ field.name ≠ "" := by
  decide +kernel

theorem bundled_distinct : Distinct bundled.fields where
  names := nodup_names_of_freshBits bundled_checked.1
  ordinals := (nodup_of_freshBits bundled_checked.2.1).1

theorem bundled_named : bundled.Named := by
  have tables : ∀ table : EnumKind, ((bundled.table table).entries.map (·.1)).Nodup ∧
      ∀ entry ∈ (bundled.table table).entries, (Bytes.ofText entry.1).length < 47 := by
    intro table
    have member : table ∈ [EnumKind.transactionType, .ledgerEntryType, .transactionResult] := by
      cases table <;> decide
    obtain ⟨codes, lengths⟩ := bundled_checked.2.2.1 table member
    exact ⟨nodup_names_of_freshBits codes, lengths⟩
  constructor
  · intro table code name shown
    exact code?_of_name? (tables table).1 shown
  · intro table code name shown
    have short : (Bytes.ofText name).length < 47 :=
      (tables table).2 _ (EnumTable.mem_of_name? shown)
    have fewer := Bytes.length_le_length_ofText name
    omega

theorem bundled_sound : bundled.Sound where
  toNamed := bundled_named
  located := fieldAt?_of_nodup bundled_distinct.ordinals
  positive := by
    intro field member headed
    exact ((bundled_checked.2.2.2 field member).1 headed).1
  framed := by
    intro field member headed
    exact ((bundled_checked.2.2.2 field member).1 headed).2
  account := by
    intro field member
    exact (bundled_checked.2.2.2 field member).2.1
  nonempty := by
    intro field member
    exact (bundled_checked.2.2.2 field member).2.2
  objectEnd := ⟨⟨"ObjectEndMarker", "STObject", 14, 1, false, true, true⟩, rfl, rfl⟩
  arrayEnd := ⟨⟨"ArrayEndMarker", "STArray", 15, 1, false, true, true⟩, rfl, rfl, by decide⟩
  transactionType := ⟨⟨"TransactionType", "UInt16", 1, 2, false, true, true⟩, rfl, rfl, rfl⟩

end Registry

theorem Context.standard_sound : Context.standard.Sound where
  addresses := CheckedText.base58_distinctive
  registry := Registry.bundled_sound

end LedgerWire
