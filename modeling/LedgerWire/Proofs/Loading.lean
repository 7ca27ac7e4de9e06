import LedgerWire.Proofs.Outcome
import LedgerWire.Registry.Document
import Mathlib.Data.List.Nodup

/-!
# Fields of a loaded registry

Entries of a definitions document are added one after another, and an entry that
repeats a name or an ordinal is refused. So whatever the document is, the fields
that were loaded differ by their names, and those that are written differ by
their ordinals. The tables of the document have no order of their own, and it
does not matter in which one they are loaded.
-/

namespace LedgerWire

/-! ## Documents in another order -/

namespace Definitions

/-- The entries of a table. -/
def entries (document : Definitions) : EnumKind → List (String × Int)
  | .transactionType => document.transactionTypes
  | .ledgerEntryType => document.ledgerEntryTypes
  | .transactionResult => document.transactionResults

/-- The same document but for the order in which its tables hold their entries. -/
structure Reordered (document other : Definitions) : Prop where
  fields : other.fields = document.fields
  types : other.types.Perm document.types
  tables : ∀ table, (other.entries table).Perm (document.entries table)

theorem Reordered.refl (document : Definitions) : document.Reordered document :=
  ⟨rfl, .refl _, fun _ => .refl _⟩

end Definitions

namespace Registry

/-- A registry that a text defines, its tables loaded in any order. -/
def Loads (text : String) (registry : Registry) : Prop :=
  ∃ document order, (Json.parseLoose? text).bind Definitions.ofJson? = some document ∧
    document.Reordered order ∧ ofDefinitions order = .ok registry

/-! ## Adding entries -/

/-- What loading makes sure of. -/
structure Distinct (fields : List Field) : Prop where
  names : (fields.map (·.name)).Nodup
  ordinals : ((fields.filter (·.serialized)).map Field.ordinal).Nodup

private theorem distinct_nil : Distinct [] := ⟨List.nodup_nil, List.nodup_nil⟩

/-- The field that an entry declares under these codes. -/
def declared (entry : FieldEntry) (typeCode nth : Nat) : Field where
  name := entry.name
  typeName := entry.typeName
  typeCode := typeCode
  nth := nth
  lengthPrefixed := entry.lengthPrefixed
  serialized := entry.serialized
  signing := entry.signing

/-- An entry is left out as a placeholder, or it becomes a field whose name is new
and whose ordinal, if it is written, is new as well. -/
theorem addEntry_eq_ok {types : List (String × Int)} {held result : List Field}
    {entry : FieldEntry} (added : addEntry types held entry = .ok result) :
    ∃ typeCode, types.lookup entry.typeName = some typeCode ∧
      ((result = held ∧ (code? typeCode = none ∨ code? entry.nth = none)) ∨
        ∃ code nth, code? typeCode = some code ∧ code? entry.nth = some nth ∧
          result = held ++ [declared entry code nth] ∧
          (∀ field ∈ held, field.name ≠ entry.name) ∧
          (entry.serialized = true →
            ∀ field ∈ held, field.serialized = true →
              field.ordinal ≠ Field.ordinalOf code nth)) := by
  unfold addEntry at added
  cases known : types.lookup entry.typeName with
  | none =>
      simp [known] at added
  | some typeCode =>
      refine ⟨typeCode, rfl, ?_⟩
      simp only [known] at added
      split at added
      · rename_i code nth codeInRange nthInRange
        refine .inr ⟨code, nth, codeInRange, nthInRange, ?_⟩
        split at added
        · cases added
        · rename_i fresh
          have newName : ∀ field ∈ held, field.name ≠ entry.name := by
            simpa using fresh
          split at added
          · cases added
          · rename_i unheld
            cases added
            refine ⟨rfl, newName, fun serialized field member written same => ?_⟩
            cases found : holder? held (Field.ordinalOf code nth) with
            | none =>
                have missed := List.find?_eq_none.mp found field member
                simp [written, same] at missed
            | some first =>
                exact unheld first serialized found
      · rename_i outOfRange
        cases added
        refine .inl ⟨rfl, ?_⟩
        cases first : code? typeCode with
        | none =>
            exact .inl rfl
        | some code =>
            cases second : code? entry.nth with
            | none =>
                exact .inr rfl
            | some nth =>
                exact absurd second (outOfRange code nth first)

private theorem distinct_of_addEntry {types : List (String × Int)} {held result : List Field}
    {entry : FieldEntry} (distinct : Distinct held)
    (added : addEntry types held entry = .ok result) : Distinct result := by
  obtain ⟨_, _, ⟨rfl, _⟩ | ⟨code, nth, _, _, rfl, newName, newOrdinal⟩⟩ := addEntry_eq_ok added
  · exact distinct
  · constructor
    · rw [List.map_append, List.map_singleton]
      refine distinct.names.append (List.nodup_singleton _) ?_
      intro name inHeld isNew
      obtain ⟨field, member, rfl⟩ := List.mem_map.mp inHeld
      exact newName field member (List.mem_singleton.mp isNew)
    · rw [List.filter_append, List.map_append]
      by_cases serialized : entry.serialized = true
      · have kept : [declared entry code nth].filter (·.serialized) =
            [declared entry code nth] := List.filter_cons_of_pos serialized
        rw [kept, List.map_singleton]
        refine distinct.ordinals.append (List.nodup_singleton _) ?_
        intro ordinal inHeld isNew
        obtain ⟨field, member, rfl⟩ := List.mem_map.mp inHeld
        obtain ⟨fieldHeld, written⟩ := List.mem_filter.mp member
        exact newOrdinal serialized field fieldHeld written (List.mem_singleton.mp isNew)
      · have left : [declared entry code nth].filter (·.serialized) = [] :=
          List.filter_cons_of_neg serialized
        rw [left, List.map_nil, List.append_nil]
        exact distinct.ordinals

theorem distinct_of_ofDefinitions {document : Definitions} {registry : Registry}
    (loaded : ofDefinitions document = .ok registry) : Distinct registry.fields := by
  obtain ⟨fields, added, rfl⟩ := Outcome.bind_pure_eq_ok.mp loaded
  exact Outcome.foldlM_induction distinct_nil (fun _ _ _ => distinct_of_addEntry) added

theorem ofText_eq_ok {text : String} {registry : Registry} :
    ofText text = .ok registry ↔
      ∃ document, (Json.parseLoose? text).bind Definitions.ofJson? = some document ∧
        ofDefinitions document = .ok registry := by
  unfold ofText
  cases (Json.parseLoose? text).bind Definitions.ofJson? with
  | none =>
      simp
  | some document =>
      simp

theorem loads_of_ofText {text : String} {registry : Registry}
    (loaded : ofText text = .ok registry) : Loads text registry := by
  obtain ⟨document, parsed, fieldsLoaded⟩ := ofText_eq_ok.mp loaded
  exact ⟨document, document, parsed, .refl document, fieldsLoaded⟩

/-- Whatever its text is, the fields of a loaded registry are distinct. -/
theorem distinct_of_loads {text : String} {registry : Registry} (loaded : Loads text registry) :
    Distinct registry.fields := by
  obtain ⟨_, _, _, _, fieldsLoaded⟩ := loaded
  exact distinct_of_ofDefinitions fieldsLoaded

end Registry

end LedgerWire
