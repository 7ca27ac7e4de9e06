import LedgerWire.Proofs.CodeTables
import Mathlib.Data.List.Find

/-!
# Looking up the fields of a document

A registry holds the fields of exactly those entries of its document whose codes fit, in
their order. Tables of positions that are kept beside the fields while the entries are
added point to the fields with the keys they are looked up for, so an indexed registry is
loaded whenever the plain one is and finds the same fields.
-/

namespace LedgerWire.Registry

/-! ## Tables of positions -/

section Points

variable {κ : Type} [BEq κ] {table : List (κ × Nat)} {key : Field → Option κ}
  {fields : List Field} {field : Field} {one : κ}

/-- The table gives for each key the position of the field with that key. -/
def Points (table : List (κ × Nat)) (key : Field → Option κ) (fields : List Field) : Prop :=
  ∀ one position, table.lookup one = some position ↔
    ∃ field, fields[position]? = some field ∧ key field = some one

private theorem getElem?_behind {position : Nat} {held : Field} :
    (fields ++ [field])[position]? = some held ↔
      fields[position]? = some held ∨ position = fields.length ∧ field = held := by
  by_cases before : position < fields.length
  · rw [List.getElem?_append_left before]
    simp [Nat.ne_of_lt before]
  · have after : fields.length ≤ position := Nat.le_of_not_lt before
    rw [List.getElem?_append_right after, List.getElem?_eq_none after, List.getElem?_singleton]
    by_cases last : position = fields.length
    · simp [last]
    · rw [if_neg (by omega)]
      simp [last]

namespace Points

theorem nil (key : Field → Option κ) : Points [] key [] := by
  intro one position
  simp

/-- A field without a key is put behind the others. -/
theorem append_unkeyed (points : Points table key fields) (unkeyed : key field = none) :
    Points table key (fields ++ [field]) := by
  intro other position
  rw [points other position]
  apply exists_congr
  intro held
  rw [getElem?_behind]
  constructor
  · rintro ⟨present, keyed⟩
    exact ⟨.inl present, keyed⟩
  · rintro ⟨present | ⟨_, rfl⟩, keyed⟩
    · exact ⟨present, keyed⟩
    · rw [unkeyed] at keyed
      cases keyed

/-- A field with a new key is put behind the others, and its position into the table. -/
theorem append_keyed [LawfulBEq κ] (points : Points table key fields) (keyed : key field = some one)
    (fresh : table.lookup one = none) :
    Points ((one, fields.length) :: table) key (fields ++ [field]) := by
  intro other position
  rw [List.lookup_cons]
  by_cases same : other = one
  · subst same
    rw [beq_self_eq_true]
    constructor
    · intro found
      cases found
      exact ⟨field, getElem?_behind.mpr (.inr ⟨rfl, rfl⟩), keyed⟩
    · rintro ⟨held, present, heldKeyed⟩
      rcases getElem?_behind.mp present with earlier | ⟨last, _⟩
      · have found := (points other position).mpr ⟨held, earlier, heldKeyed⟩
        rw [fresh] at found
        cases found
      · rw [last]
  · rw [beq_eq_false_iff_ne.mpr same]
    dsimp only
    rw [points other position]
    apply exists_congr
    intro held
    rw [getElem?_behind]
    constructor
    · rintro ⟨present, heldKeyed⟩
      exact ⟨.inl present, heldKeyed⟩
    · rintro ⟨present | ⟨_, rfl⟩, heldKeyed⟩
      · exact ⟨present, heldKeyed⟩
      · rw [keyed] at heldKeyed
        exact absurd (Option.some.inj heldKeyed).symm same

theorem isSome_lookup_iff (points : Points table key fields) :
    (table.lookup one).isSome = true ↔ ∃ field ∈ fields, key field = some one := by
  rw [Option.isSome_iff_exists]
  constructor
  · rintro ⟨position, found⟩
    obtain ⟨held, present, keyed⟩ := (points one position).mp found
    exact ⟨held, List.mem_of_getElem? present, keyed⟩
  · rintro ⟨held, member, keyed⟩
    obtain ⟨position, present⟩ := List.mem_iff_getElem?.mp member
    exact ⟨position, (points one position).mpr ⟨held, present, keyed⟩⟩

/-- No position in the table is beyond the fields, and no two fields have one key. -/
theorem found_iff (points : Points table key fields) :
    ((table.lookup one).bind fun position => fields[position]?) = some field ↔
      field ∈ fields ∧ key field = some one := by
  rw [Option.bind_eq_some_iff]
  constructor
  · rintro ⟨position, found, present⟩
    obtain ⟨held, heldPresent, keyed⟩ := (points one position).mp found
    rw [present] at heldPresent
    cases heldPresent
    exact ⟨List.mem_of_getElem? present, keyed⟩
  · rintro ⟨member, keyed⟩
    obtain ⟨position, present⟩ := List.mem_iff_getElem?.mp member
    exact ⟨position, (points one position).mpr ⟨field, present, keyed⟩, present⟩

/-- What a table finds is what a search through the fields finds first. -/
theorem found_eq_find? [LawfulBEq κ] (points : Points table key fields) :
    ((table.lookup one).bind fun position => fields[position]?) =
      fields.find? fun field => key field == some one := by
  cases searched : fields.find? fun field => key field == some one with
  | none =>
      apply Option.eq_none_iff_forall_ne_some.mpr
      intro field found
      obtain ⟨member, keyed⟩ := points.found_iff.mp found
      exact List.find?_eq_none.mp searched field member (beq_iff_eq.mpr keyed)
  | some field =>
      have keyed : key field = some one := by
        simpa using List.find?_some searched
      exact points.found_iff.mpr ⟨List.mem_of_find?_eq_some searched, keyed⟩

end Points

end Points

/-! ## Adding entries -/

/-- An entry declares a field, or it is a placeholder and left out. -/
theorem addEntry_eq (types : List (String × Int)) (held : List Field) (entry : FieldEntry) :
    addEntry types held entry = declaration? types entry >>= fun declared =>
      match declared with
      | none => .ok held
      | some field =>
          if held.any fun other => other.name == field.name then
            .error (.duplicateName field.name)
          else
            match field.serialized, holder? held field.ordinal with
            | true, some first =>
                .error (.duplicateOrdinal first.name field.name field.ordinal)
            | _, _ => .ok (held ++ [field]) := by
  unfold addEntry declaration?
  cases types.lookup entry.typeName with
  | none =>
      rfl
  | some typeCode =>
      dsimp only
      cases code? typeCode <;> cases code? entry.nth <;> rfl

namespace Index

/-- The key of a written field. -/
def ordinalKey (field : Field) : Option Nat :=
  if field.serialized then some field.ordinal else none

theorem ordinalKey_eq_some {field : Field} {ordinal : Nat} :
    ordinalKey field = some ordinal ↔ field.serialized = true ∧ field.ordinal = ordinal := by
  unfold ordinalKey
  by_cases serialized : field.serialized = true
  · simp [serialized]
  · simp [serialized]

/-- Both tables point to the fields that stand in front of them. -/
structure Agrees (index : Index) : Prop where
  named : Points index.byName (fun field => some field.name) index.fields
  placed : Points index.byOrdinal ordinalKey index.fields

private theorem agrees_empty : Agrees empty := ⟨Points.nil _, Points.nil _⟩

variable {index next : Index} {types : List (String × Int)} {entry : FieldEntry} {field : Field}

private theorem agrees_push (agrees : Agrees index)
    (newName : index.byName.lookup field.name = none)
    (newOrdinal : field.serialized = true → index.byOrdinal.lookup field.ordinal = none) :
    Agrees (index.push field) := by
  refine ⟨agrees.named.append_keyed rfl newName, ?_⟩
  by_cases serialized : field.serialized = true
  · have keyed : ordinalKey field = some field.ordinal := if_pos serialized
    rw [push, if_pos serialized]
    exact agrees.placed.append_keyed keyed (newOrdinal serialized)
  · have unkeyed : ordinalKey field = none := if_neg serialized
    rw [push, if_neg serialized]
    exact agrees.placed.append_unkeyed unkeyed

private theorem Agrees.field?_eq (agrees : Agrees index) (name : String) :
    index.field? name = index.fields.find? fun field => field.name == name := by
  rw [field?, agrees.named.found_eq_find?]
  rfl

private theorem Agrees.atOrdinal?_eq (agrees : Agrees index) (ordinal : Nat) :
    index.atOrdinal? ordinal = holder? index.fields ordinal := by
  rw [atOrdinal?, agrees.placed.found_eq_find?, holder?]
  congr 1
  funext field
  rw [Bool.eq_iff_iff, beq_iff_eq, ordinalKey_eq_some, Bool.and_eq_true, beq_iff_eq]

private theorem Agrees.isSome_byName (agrees : Agrees index) (name : String) :
    (index.byName.lookup name).isSome = index.fields.any fun field => field.name == name := by
  rw [Bool.eq_iff_iff, agrees.named.isSome_lookup_iff, List.any_eq_true]
  simp

private theorem Agrees.isSome_byOrdinal (agrees : Agrees index) (ordinal : Nat) :
    (index.byOrdinal.lookup ordinal).isSome = (index.atOrdinal? ordinal).isSome := by
  rw [Bool.eq_iff_iff, agrees.placed.isSome_lookup_iff, Option.isSome_iff_exists]
  apply exists_congr
  intro field
  rw [atOrdinal?, agrees.placed.found_iff]

/-- Beside tables that agree an entry is added as it is without them, or refused for the
same fault. -/
theorem addEntry_fields (agrees : Agrees index) :
    (addEntry types index entry).map fields = Registry.addEntry types index.fields entry := by
  rw [Registry.addEntry_eq, addEntry]
  cases declaration? types entry with
  | error fault =>
      rfl
  | ok declared =>
      cases declared with
      | none =>
          rfl
      | some field =>
          rw [Outcome.ok_bind, Outcome.ok_bind]
          dsimp only
          rw [agrees.isSome_byName, agrees.atOrdinal?_eq]
          split
          · rfl
          · cases field.serialized <;> cases holder? index.fields field.ordinal <;> rfl

/-- Adding an entry keeps the tables in agreement. -/
theorem agrees_addEntry (agrees : Agrees index) (added : addEntry types index entry = .ok next) :
    Agrees next := by
  obtain ⟨declared, _, others⟩ := Outcome.bind_eq_ok.mp added
  cases declared with
  | none =>
      cases others
      exact agrees
  | some field =>
      dsimp only at others
      split at others
      · cases others
      · rename_i newName
        split at others
        · cases others
        · rename_i unheld
          cases others
          apply agrees_push agrees (Option.not_isSome_iff_eq_none.mp newName)
          intro serialized
          apply Option.not_isSome_iff_eq_none.mp
          rw [agrees.isSome_byOrdinal, Option.isSome_iff_exists]
          rintro ⟨first, found⟩
          exact unheld first serialized found

/-- The entries of a document are indexed as they are loaded, up to the first fault. -/
theorem foldlM_addEntry (agrees : Agrees index) (entries : List FieldEntry) :
    (entries.foldlM (addEntry types) index).map fields =
        entries.foldlM (Registry.addEntry types) index.fields ∧
      ∀ last, entries.foldlM (addEntry types) index = .ok last → Agrees last := by
  induction entries generalizing index with
  | nil =>
      refine ⟨rfl, fun last reached => ?_⟩
      cases reached
      exact agrees
  | cons entry rest inductionHypothesis =>
      rw [List.foldlM_cons, List.foldlM_cons, ← addEntry_fields agrees]
      cases added : addEntry types index entry with
      | error fault =>
          exact ⟨rfl, fun last reached => nomatch reached⟩
      | ok next =>
          exact inductionHypothesis (agrees_addEntry agrees added)

end Index

/-! ## The fields that are held -/

/-- The entry declares a field: the code of its type and its own are of 16 bits. -/
def addressable (types : List (String × Int)) (entry : FieldEntry) : Bool :=
  (types.lookup entry.typeName).any fun typeCode =>
    decide ((0 ≤ typeCode ∧ typeCode ≤ 65535) ∧ 0 ≤ entry.nth ∧ entry.nth ≤ 65535)

/-- The field is what the entry declares. -/
structure Declares (types : List (String × Int)) (entry : FieldEntry) (field : Field) : Prop where
  name : field.name = entry.name
  typeName : field.typeName = entry.typeName
  typeCode : types.lookup entry.typeName = some (field.typeCode : Int)
  nth : entry.nth = (field.nth : Int)
  lengthPrefixed : field.lengthPrefixed = entry.lengthPrefixed
  serialized : field.serialized = entry.serialized
  signing : field.signing = entry.signing
  typeBound : field.typeCode ≤ 65535
  nthBound : field.nth ≤ 65535

section Entries

variable {types : List (String × Int)} {entry : FieldEntry} {held result : List Field}

theorem code?_eq_some {code : Int} {narrow : Nat} :
    code? code = some narrow ↔ code = (narrow : Int) ∧ narrow ≤ 65535 := by
  unfold code?
  split
  · rw [Option.some.injEq]
    omega
  · constructor
    · intro impossible
      cases impossible
    · omega

theorem code?_eq_none {code : Int} : code? code = none ↔ ¬ (0 ≤ code ∧ code ≤ 65535) := by
  rw [code?, ite_eq_right_iff]
  simp only [reduceCtorEq, imp_false]
  omega

private theorem declares_declared {typeCode : Int} {code nth : Nat}
    (known : types.lookup entry.typeName = some typeCode) (codeFits : code? typeCode = some code)
    (nthFits : code? entry.nth = some nth) :
    addressable types entry = true ∧ Declares types entry (declared entry code nth) := by
  obtain ⟨rfl, codeBound⟩ := code?_eq_some.mp codeFits
  obtain ⟨nthSame, nthBound⟩ := code?_eq_some.mp nthFits
  constructor
  · rw [addressable, known, Option.any_some, decide_eq_true_iff]
    omega
  · exact ⟨rfl, rfl, known, nthSame, rfl, rfl, rfl, codeBound, nthBound⟩

private theorem not_addressable {typeCode : Int}
    (known : types.lookup entry.typeName = some typeCode)
    (placeholder : code? typeCode = none ∨ code? entry.nth = none) :
    addressable types entry = false := by
  rw [code?_eq_none, code?_eq_none] at placeholder
  rw [addressable, known, Option.any_some, decide_eq_false_iff_not]
  tauto

/-- Behind the fields held so far come those that the addressable entries declare. -/
theorem declares_of_foldlM {entries : List FieldEntry}
    (loaded : entries.foldlM (addEntry types) held = .ok result) :
    ∃ added, result = held ++ added ∧
      List.Forall₂ (Declares types) (entries.filter (addressable types)) added := by
  induction entries generalizing held with
  | nil =>
      cases loaded
      exact ⟨[], (List.append_nil _).symm, .nil⟩
  | cons entry rest inductionHypothesis =>
      rw [List.foldlM_cons] at loaded
      obtain ⟨next, entryAdded, restAdded⟩ := Outcome.bind_eq_ok.mp loaded
      obtain ⟨added, rfl, declares⟩ := inductionHypothesis restAdded
      obtain ⟨typeCode, known, ⟨rfl, placeholder⟩ | ⟨code, nth, codeFits, nthFits, rfl, _⟩⟩ :=
        addEntry_eq_ok entryAdded
      · rw [List.filter_cons_of_neg (by rw [not_addressable known placeholder]; decide)]
        exact ⟨added, rfl, declares⟩
      · obtain ⟨kept, first⟩ := declares_declared known codeFits nthFits
        rw [List.filter_cons_of_pos kept]
        exact ⟨declared entry code nth :: added, List.append_assoc held _ added,
          .cons first declares⟩

end Entries

/-! ## Loaded registries -/

/-- The fields of a registry are those of its document, and its look-ups tell them apart. -/
structure Reflects (document : Definitions) (registry : Registry) : Prop where
  held : List.Forall₂ (Declares document.types)
    (document.fields.filter (addressable document.types)) registry.fields
  names : (registry.fields.map (·.name)).Nodup
  named : ∀ name field, registry.field? name = some field ↔
    field ∈ registry.fields ∧ field.name = name
  codes : ((registry.fields.filter (·.serialized)).map fun field =>
    (field.typeCode, field.nth)).Nodup
  placed : ∀ typeCode nth field, registry.fieldAt? typeCode nth = some field ↔
    field ∈ registry.fields ∧ field.serialized = true ∧ field.typeCode = typeCode ∧
      field.nth = nth

section Loaded

variable {document : Definitions} {registry : Registry} {index : Index}

/-- A document is indexed exactly if a registry is loaded from it, with the same fields or
the same fault. -/
theorem Index.ofDefinitions_fields (document : Definitions) :
    (Index.ofDefinitions document).map Index.fields =
      (Registry.ofDefinitions document).map Registry.fields := by
  have folded : (Index.ofDefinitions document).map Index.fields =
      document.fields.foldlM (Registry.addEntry document.types) [] :=
    (Index.foldlM_addEntry Index.agrees_empty document.fields).1
  rw [folded, Registry.ofDefinitions]
  cases document.fields.foldlM (Registry.addEntry document.types) [] with
  | error fault =>
      rfl
  | ok fields =>
      rfl

private theorem Index.exists_of_ofDefinitions
    (loaded : Registry.ofDefinitions document = .ok registry) :
    ∃ index, Index.ofDefinitions document = .ok index ∧ index.fields = registry.fields ∧
      Index.Agrees index := by
  have fields := Index.ofDefinitions_fields document
  rw [loaded] at fields
  cases indexed : Index.ofDefinitions document with
  | error fault =>
      rw [indexed] at fields
      cases fields
  | ok index =>
      rw [indexed] at fields
      exact ⟨index, rfl, Except.ok.inj fields,
        (Index.foldlM_addEntry Index.agrees_empty document.fields).2 index indexed⟩

/-- Two codes of 16 bits are told by their ordinal. -/
theorem ordinalOf_inj {typeCode nth otherType otherNth : Nat} (nthBound : nth ≤ 65535)
    (otherNthBound : otherNth ≤ 65535) :
    Field.ordinalOf typeCode nth = Field.ordinalOf otherType otherNth ↔
      typeCode = otherType ∧ nth = otherNth := by
  unfold Field.ordinalOf
  omega

theorem Index.fieldAt?_eq_some (agrees : Index.Agrees index)
    (narrow : ∀ field ∈ index.fields, field.nth ≤ 65535) {typeCode nth : Nat} {field : Field}
    (nthBound : nth ≤ 65535) :
    index.fieldAt? typeCode nth = some field ↔
      field ∈ index.fields ∧ field.serialized = true ∧ field.typeCode = typeCode ∧
        field.nth = nth := by
  rw [Index.fieldAt?, Index.atOrdinal?, agrees.placed.found_iff, Index.ordinalKey_eq_some]
  apply and_congr_right
  intro member
  apply and_congr_right
  intro _
  exact ordinalOf_inj (narrow field member) nthBound

private theorem fieldAt?_eq_index (agrees : Index.Agrees index)
    (same : index.fields = registry.fields)
    (narrow : ∀ field ∈ registry.fields, field.nth ≤ 65535) {typeCode nth : Nat}
    (nthBound : nth ≤ 65535) : index.fieldAt? typeCode nth = registry.fieldAt? typeCode nth := by
  rw [Index.fieldAt?, agrees.atOrdinal?_eq, holder?, fieldAt?, same]
  apply List.find?_congr
  intro field member
  rw [Bool.and_assoc, Bool.eq_iff_iff, Bool.and_eq_true, Bool.and_eq_true, Bool.and_eq_true,
    beq_iff_eq, beq_iff_eq, beq_iff_eq]
  apply and_congr_right
  intro _
  exact ordinalOf_inj (narrow field member) nthBound

theorem fieldAt?_eq_some (agrees : Index.Agrees index) (same : index.fields = registry.fields)
    (narrow : ∀ field ∈ registry.fields, field.nth ≤ 65535) (typeCode nth : Nat) (field : Field) :
    registry.fieldAt? typeCode nth = some field ↔
      field ∈ registry.fields ∧ field.serialized = true ∧ field.typeCode = typeCode ∧
        field.nth = nth := by
  by_cases nthBound : nth ≤ 65535
  · rw [← fieldAt?_eq_index agrees same narrow nthBound, ← same]
    exact Index.fieldAt?_eq_some agrees (same ▸ narrow) nthBound
  · constructor
    · intro found
      have matched := List.find?_some found
      rw [Bool.and_eq_true, beq_iff_eq] at matched
      have bounded := narrow field (List.mem_of_find?_eq_some found)
      omega
    · rintro ⟨member, _, _, rfl⟩
      exact absurd (narrow field member) nthBound

private theorem declares_of_ofDefinitions (loaded : ofDefinitions document = .ok registry) :
    List.Forall₂ (Declares document.types)
      (document.fields.filter (addressable document.types)) registry.fields := by
  obtain ⟨fields, held, rfl⟩ := Outcome.bind_pure_eq_ok.mp loaded
  obtain ⟨added, rfl, declares⟩ := declares_of_foldlM held
  exact declares

private theorem nth_le_of_ofDefinitions (loaded : ofDefinitions document = .ok registry) :
    ∀ field ∈ registry.fields, field.nth ≤ 65535 := by
  intro field member
  obtain ⟨entry, _, declared⟩ :=
    Outcome.exists_of_mem_right (declares_of_ofDefinitions loaded) member
  exact declared.nthBound

private theorem reflects_of_ofDefinitions (loaded : ofDefinitions document = .ok registry)
    (agrees : Index.Agrees index) (same : index.fields = registry.fields) :
    Reflects document registry := by
  have distinct := distinct_of_ofDefinitions loaded
  refine ⟨declares_of_ofDefinitions loaded, distinct.names, fun name field => ?_, ?_,
    fieldAt?_eq_some agrees same (nth_le_of_ofDefinitions loaded)⟩
  · rw [field?, ← same, ← agrees.field?_eq, Index.field?, agrees.named.found_iff, Option.some.injEq]
  · apply List.Nodup.of_map fun codes => Field.ordinalOf codes.1 codes.2
    rw [List.map_map]
    exact distinct.ordinals

private theorem Reflects.of_fields {base : Registry} (same : base.fields = registry.fields)
    (reflects : Reflects document base) : Reflects document registry where
  held := same ▸ reflects.held
  names := same ▸ reflects.names
  named := by
    have named := reflects.named
    simp only [field?, same] at named ⊢
    exact named
  codes := same ▸ reflects.codes
  placed := by
    have placed := reflects.placed
    simp only [fieldAt?, same] at placed ⊢
    exact placed

/-- Of whatever document a registry is loaded, and in whatever order its tables, it holds the
fields of just the addressable entries. A name finds the one field that has it, and two codes
find the one written field that has them. Tables of positions kept beside the fields find the
same. -/
theorem reflects_of_loads {text : String} {registry : Registry}
    (loaded : Loads text registry) :
    ∃ document index, (Json.parseLoose? text).bind Definitions.ofJson? = some document ∧
      Reflects document registry ∧
      Index.ofDefinitions document = .ok index ∧ index.fields = registry.fields ∧
      (∀ name, index.field? name = registry.field? name) ∧
      ∀ typeCode nth, nth ≤ 65535 →
        index.fieldAt? typeCode nth = registry.fieldAt? typeCode nth := by
  obtain ⟨document, base, parsed, loaded, fields⟩ := exists_ofDefinitions_of_loads loaded
  obtain ⟨index, indexed, same, agrees⟩ := Index.exists_of_ofDefinitions loaded
  have reflects := (reflects_of_ofDefinitions loaded agrees same).of_fields fields
  have narrow := nth_le_of_ofDefinitions loaded
  rw [fields] at same narrow
  refine ⟨document, index, parsed, reflects, indexed, same, fun name => ?_,
    fun typeCode nth nthBound => ?_⟩
  · rw [agrees.field?_eq, same, field?]
  · exact fieldAt?_eq_index agrees same narrow nthBound

/-- Definitions of a written field between two unwritten ones with its codes, among entries
with a code too small and a code too large. -/
def sharedCodes : String :=
  "[\x7b\"T\":2,\"Old\":-2\x7d,\x7b\x7d,[" ++
    "[\"Gone\",[7,false,true,true,\"Old\"]]," ++
    "[\"Early\",[7,false,false,false,\"T\"]]," ++
    "[\"Sent\",[7,false,true,true,\"T\"]]," ++
    "[\"Late\",[7,false,false,true,\"T\"]]," ++
    "[\"Late\",[65536,false,true,true,\"T\"]]],\x7b\x7d,\x7b\x7d]"

def earlyField : Field := ⟨"Early", "T", 2, 7, false, false, false⟩

def sentField : Field := ⟨"Sent", "T", 2, 7, false, true, true⟩

def lateField : Field := ⟨"Late", "T", 2, 7, false, false, true⟩

/-- Of three fields with the same codes the written one is found, and no placeholder is. -/
theorem reflects_of_loads_sharedCodes :
    ∃ registry document index, ofText sharedCodes = .ok registry ∧
      (Json.parseLoose? sharedCodes).bind Definitions.ofJson? = some document ∧
      Reflects document registry ∧
      registry.fields = [earlyField, sentField, lateField] ∧
      Index.ofDefinitions document = .ok index ∧
      index.fieldAt? 2 7 = some sentField ∧ index.field? "Late" = some lateField ∧
      index.field? "Gone" = none := by
  have evaluated : ((ofText sharedCodes).toOption.any fun registry =>
      registry.fields == [earlyField, sentField, lateField]) = true := by
    decide +kernel
  obtain ⟨registry, found, same⟩ := (Option.any_eq_true _ _).mp evaluated
  have loaded := Outcome.eq_ok_of_toOption found
  have fields := beq_iff_eq.mp same
  obtain ⟨document, index, parsed, reflects, indexed, _, named, placed⟩ :=
    reflects_of_loads (loads_of_ofText loaded)
  refine ⟨registry, document, index, loaded, parsed, reflects, fields, indexed, ?_, ?_, ?_⟩
  · rw [placed 2 7 (by decide), fieldAt?, fields]
    decide
  · rw [named, field?, fields]
    decide
  · rw [named, field?, fields]
    decide

end Loaded

end LedgerWire.Registry
