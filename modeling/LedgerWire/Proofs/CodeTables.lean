import LedgerWire.Object.Decoding
import LedgerWire.Object.Encoding
import LedgerWire.Proofs.DecodedDocuments
import LedgerWire.Registry.Index

/-!
# Tables of codes

The entries of a table have no order of their own. What a name stands for does not depend
on the order in which they are held, and neither does the name of a code that one name
has. A code that several names share is shown by any of them: by the one that happens to
come first.
-/

namespace LedgerWire

namespace EnumTable

variable {entries order : List (String × Int)} {name : String} {code : Int}

/-! ## Filling the tables -/

namespace Index

variable {index : Index} {entry : String × Int}

private theorem code?_insert :
    (index.insert entry).code? name =
      if name = entry.1 then some entry.2 else index.code? name := by
  rw [code?, insert, List.lookup_cons]
  by_cases same : name = entry.1
  · rw [if_pos same, beq_iff_eq.mpr same]
  · rw [if_neg same, beq_eq_false_iff_ne.mpr same]
    rfl

private theorem name?_insert :
    (index.insert entry).name? code =
      (index.name? code).or (if entry.2 = code then some entry.1 else none) := by
  rw [name?, name?, insert]
  by_cases same : entry.2 = code
  · subst same
    cases held : index.byCode.lookup entry.2 with
    | none =>
        simp
    | some first =>
        simp [held]
  · rw [if_neg same, Option.or_none]
    split
    · rfl
    · rw [List.lookup_cons, beq_eq_false_iff_ne.mpr (Ne.symm same)]

/-- A code keeps the name that it had, and else it gets that of the first entry with it. -/
theorem name?_foldl (entries : List (String × Int)) (index : Index) :
    (entries.foldl insert index).name? code =
      (index.name? code).or ((entries.find? fun entry => entry.2 == code).map (·.1)) := by
  induction entries generalizing index with
  | nil =>
      rw [List.foldl_nil, List.find?_nil, Option.map_none, Option.or_none]
  | cons entry rest inductionHypothesis =>
      rw [List.foldl_cons, inductionHypothesis, name?_insert, Option.or_assoc, List.find?_cons]
      congr 1
      by_cases same : entry.2 = code
      · rw [if_pos same, beq_iff_eq.mpr same]
        rfl
      · rw [if_neg same, beq_eq_false_iff_ne.mpr same, Option.none_or]

/-- A name among distinct ones gets the code of its entry, and else it keeps what it had. -/
theorem code?_foldl (names : (entries.map (·.1)).Nodup) (index : Index) :
    (entries.foldl insert index).code? name = (entries.lookup name).or (index.code? name) := by
  induction entries generalizing index with
  | nil =>
      rfl
  | cons entry rest inductionHypothesis =>
      rw [List.map_cons, List.nodup_cons] at names
      rw [List.foldl_cons, inductionHypothesis names.2, code?_insert, List.lookup_cons]
      by_cases same : name = entry.1
      · have last : rest.lookup name = none := by
          apply Option.eq_none_iff_forall_ne_some.mpr
          intro other found
          exact names.1 (same ▸ List.mem_map_of_mem (mem_of_lookup found))
        rw [last, if_pos same, beq_iff_eq.mpr same]
        rfl
      · rw [if_neg same, beq_eq_false_iff_ne.mpr same]

/-- Filled tables answer as the entries themselves do. -/
theorem name?_ofEntries (kind : EnumKind) (entries : List (String × Int)) (code : Int) :
    (ofEntries entries).name? code = (EnumTable.mk kind entries).name? code :=
  name?_foldl entries empty

private theorem code?_ofEntries (kind : EnumKind) (names : (entries.map (·.1)).Nodup)
    (name : String) :
    (ofEntries entries).code? name = (EnumTable.mk kind entries).code? name := by
  rw [ofEntries, code?_foldl names]
  exact Option.or_none

end Index

/-! ## Entries in another order -/

section Orders

variable {kind : EnumKind}

theorem isSome_name?_iff {table : EnumTable} :
    (table.name? code).isSome = true ↔ ∃ name, (name, code) ∈ table.entries := by
  constructor
  · intro shown
    obtain ⟨name, found⟩ := Option.isSome_iff_exists.mp shown
    exact ⟨name, mem_of_name? found⟩
  · rintro ⟨name, member⟩
    rw [name?, Option.isSome_map, List.find?_isSome]
    exact ⟨_, member, beq_self_eq_true code⟩

private theorem code?_perm (names : (entries.map (·.1)).Nodup) (same : order.Perm entries)
    (name : String) :
    (EnumTable.mk kind order).code? name = (EnumTable.mk kind entries).code? name :=
  (lookup_perm names same.symm name).symm

/-- Each name that has a code is shown for it in some order, and no other ever is. -/
theorem exists_order_iff :
    (∃ order, order.Perm entries ∧ (EnumTable.mk kind order).name? code = some name) ↔
      (name, code) ∈ entries := by
  constructor
  · rintro ⟨order, same, shown⟩
    exact same.mem_iff.mp (mem_of_name? shown)
  · intro member
    refine ⟨(name, code) :: entries.erase (name, code), (List.perm_cons_erase member).symm, ?_⟩
    simp [name?]

/-- No more than one name has the code. -/
def Unshared (entries : List (String × Int)) (code : Int) : Prop :=
  ∀ one other, (one, code) ∈ entries → (other, code) ∈ entries → one = other

/-- Whether a code has a name does not depend on the order. -/
theorem isSome_name?_perm (same : order.Perm entries) (code : Int) :
    ((EnumTable.mk kind order).name? code).isSome =
      ((EnumTable.mk kind entries).name? code).isSome := by
  rw [Bool.eq_iff_iff, isSome_name?_iff, isSome_name?_iff]
  exact exists_congr fun name => same.mem_iff

private theorem unshared_of_nodup (codes : (entries.map (·.2)).Nodup) (code : Int) :
    Unshared entries code := by
  intro one other oneMember otherMember
  exact congrArg Prod.fst (List.inj_on_of_nodup_map codes oneMember otherMember rfl)

private theorem name?_perm (unshared : Unshared entries code) (same : order.Perm entries) :
    (EnumTable.mk kind order).name? code = (EnumTable.mk kind entries).name? code := by
  have known : ((EnumTable.mk kind order).name? code).isSome =
      ((EnumTable.mk kind entries).name? code).isSome := isSome_name?_perm same code
  cases shown : (EnumTable.mk kind entries).name? code with
  | none =>
      rwa [shown, Option.isSome_none, Option.isSome_eq_false_iff, Option.isNone_iff_eq_none]
        at known
  | some name =>
      rw [shown, Option.isSome_some] at known
      obtain ⟨other, found⟩ := Option.isSome_iff_exists.mp known
      rw [found, unshared other name (same.mem_iff.mp (mem_of_name? found)) (mem_of_name? shown)]

/-- The order of the entries decides the name of a code exactly if several names share
it. -/
theorem name?_perm_iff :
    (∀ order, order.Perm entries →
      (EnumTable.mk kind order).name? code = (EnumTable.mk kind entries).name? code) ↔
      Unshared entries code := by
  constructor
  · intro same one other oneMember otherMember
    obtain ⟨first, firstOrder, oneShown⟩ := exists_order_iff.mpr oneMember
    obtain ⟨second, secondOrder, otherShown⟩ := exists_order_iff.mpr otherMember
    rw [same first firstOrder] at oneShown
    rw [same second secondOrder, oneShown] at otherShown
    exact Option.some.inj otherShown
  · intro unshared order same
    exact name?_perm unshared same

end Orders

end EnumTable

/-! ## Registries that answer alike -/

/-- The registries have the same fields, and their tables give the same codes and the same
names of the codes that octets can hold. -/
structure Registry.Alike (left right : Registry) : Prop where
  fields : left.fields = right.fields
  codes : ∀ table name, (left.table table).code? name = (right.table table).code? name
  known : ∀ table code,
    ((left.table table).name? code).isSome = ((right.table table).name? code).isSome
  names : ∀ table (code : Nat), (left.table table).name? code = (right.table table).name? code

namespace Registry.Alike

variable {left right : Registry} (alike : left.Alike right) (addresses : CheckedText)

include alike

theorem field? (name : String) : left.field? name = right.field? name := by
  rw [Registry.field?, Registry.field?, alike.fields]

/-! ### Reading -/

theorem readField : Header.readField left = Header.readField right := by
  unfold Header.readField fieldAt?
  rw [alike.fields]

private theorem scalar_toJson (scalar : Scalar) :
    scalar.toJson ⟨left, addresses⟩ = scalar.toJson ⟨right, addresses⟩ := by
  cases scalar with
  | named value =>
      simp only [Scalar.toJson, EnumCode.toJson, EnumCode.name?, alike.names]
  | _ =>
      rfl

theorem readFields (readValue : Field → Read Json) (marker : String) (fuel : Nat) :
    Object.readFields ⟨left, addresses⟩ readValue marker fuel =
      Object.readFields ⟨right, addresses⟩ readValue marker fuel := by
  induction fuel with
  | zero =>
      rfl
  | succ fuel inductionHypothesis =>
      rw [Object.readFields, Object.readFields, inductionHypothesis]
      simp only [alike.readField]

theorem readObject (readValue : Field → Read Json) :
    Object.readObject ⟨left, addresses⟩ readValue =
      Object.readObject ⟨right, addresses⟩ readValue := by
  simp only [Object.readObject, alike.readFields]

theorem readArray (readValue : Field → Read Json) :
    Object.readArray ⟨left, addresses⟩ readValue =
      Object.readArray ⟨right, addresses⟩ readValue := by
  simp only [Object.readArray, alike.readFields]

theorem readFieldValueWith (readValue : Field → Read Json) :
    Object.readFieldValueWith ⟨left, addresses⟩ readValue =
      Object.readFieldValueWith ⟨right, addresses⟩ readValue := by
  funext field
  simp only [Object.readFieldValueWith, alike.scalar_toJson, alike.readObject, alike.readArray]

theorem readFieldValueAt (levels : Nat) :
    Object.readFieldValueAt ⟨left, addresses⟩ levels =
      Object.readFieldValueAt ⟨right, addresses⟩ levels := by
  induction levels with
  | zero =>
      exact alike.readFieldValueWith addresses _
  | succ levels inductionHypothesis =>
      rw [Object.readFieldValueAt, Object.readFieldValueAt, inductionHypothesis,
        alike.readFieldValueWith]

theorem decode (bytes : Bytes) :
    Object.decode ⟨left, addresses⟩ bytes = Object.decode ⟨right, addresses⟩ bytes := by
  simp only [Object.decode, Object.read, alike.readFieldValueAt, alike.readObject]

/-! ### Writing -/

theorem ofJson (table : EnumKind) (value : Json) :
    EnumCode.ofJson left table value = EnumCode.ofJson right table value := by
  have given : EnumCode.codeOfJson left table value = EnumCode.codeOfJson right table value := by
    cases value with
    | string text =>
        simp only [EnumCode.codeOfJson, alike.codes]
    | _ =>
        rfl
  have taken : ∀ code, EnumCode.ofCode left table code = EnumCode.ofCode right table code := by
    intro code
    simp only [EnumCode.ofCode, ← Option.not_isSome, alike.known]
  simp only [EnumCode.ofJson, given, taken]

private theorem scalar_ofJson (value : Json) (kind : ScalarKind) :
    Scalar.ofJson ⟨left, addresses⟩ value kind = Scalar.ofJson ⟨right, addresses⟩ value kind := by
  cases kind with
  | named table =>
      simp only [Scalar.ofJson, alike.ofJson]
  | _ =>
      rfl

theorem changesValidators (entries : List (String × Json)) :
    Object.changesValidators left entries = Object.changesValidators right entries := by
  simp only [Object.changesValidators, alike.ofJson, EnumCode.name?, alike.names]

theorem canonicalFields (signingOnly : Bool) (entries : List (String × Json)) :
    Object.canonicalFields left signingOnly entries =
      Object.canonicalFields right signingOnly entries := by
  have written : Object.writtenField? left signingOnly =
      Object.writtenField? right signingOnly := by
    funext entry
    simp only [Object.writtenField?, alike.field?]
  simp only [Object.canonicalFields, Object.writtenFields, written]

theorem objectBytes (writeValue : Object.ValueWriter) (signingOnly : Bool) (value : Json) :
    Object.objectBytes ⟨left, addresses⟩ writeValue signingOnly value =
      Object.objectBytes ⟨right, addresses⟩ writeValue signingOnly value := by
  simp only [Object.objectBytes, Object.segments, alike.changesValidators, alike.canonicalFields]

theorem arrayBytes (writeValue : Object.ValueWriter) (value : Json) :
    Object.arrayBytes ⟨left, addresses⟩ writeValue value =
      Object.arrayBytes ⟨right, addresses⟩ writeValue value := by
  have items : Object.itemSegment left writeValue = Object.itemSegment right writeValue := by
    funext item
    simp only [Object.itemSegment, alike.field?]
  simp only [Object.arrayBytes, items]

theorem valueBytesWith (writeValue : Object.ValueWriter) :
    Object.valueBytesWith ⟨left, addresses⟩ writeValue =
      Object.valueBytesWith ⟨right, addresses⟩ writeValue := by
  funext field value
  simp only [Object.valueBytesWith, alike.scalar_ofJson, alike.objectBytes, alike.arrayBytes]

theorem valueBytes (levels : Nat) :
    Object.valueBytes ⟨left, addresses⟩ levels = Object.valueBytes ⟨right, addresses⟩ levels := by
  induction levels with
  | zero =>
      exact alike.valueBytesWith addresses _
  | succ levels inductionHypothesis =>
      rw [Object.valueBytes, Object.valueBytes, inductionHypothesis, alike.valueBytesWith]

theorem encode (signingOnly : Bool) (value : Json) :
    Object.encode ⟨left, addresses⟩ signingOnly value =
      Object.encode ⟨right, addresses⟩ signingOnly value := by
  have values : Object.fieldValueBytes ⟨left, addresses⟩ =
      Object.fieldValueBytes ⟨right, addresses⟩ := by
    funext field value
    simp only [Object.fieldValueBytes, alike.valueBytes]
  rw [Object.encode, Object.encode, values, alike.objectBytes]

end Registry.Alike

/-! ## Documents in another order -/

namespace Definitions

/-- No table of the document gives a name twice. -/
structure Functional (document : Definitions) : Prop where
  types : (document.types.map (·.1)).Nodup
  tables : ∀ table, ((document.entries table).map (·.1)).Nodup

private theorem names_of_table? {value : Json} {entries : List (String × Int)}
    (read : table? value = some entries) : (entries.map (·.1)).Nodup := by
  cases value with
  | object given =>
      obtain ⟨checked, _, others⟩ := Option.bind_eq_some_iff.mp read
      obtain ⟨kept, made, ascending, _⟩ := Json.ofEntries_eq_object checked
      rw [made] at others
      have keys : List.Forall₂ Eq (kept.map (·.1)) (entries.map (·.1)) := by
        rw [List.forall₂_map_left_iff, List.forall₂_map_right_iff]
        refine (Outcome.mapM_eq_some.mp others).imp fun entry taken given => ?_
        obtain ⟨code, _, same⟩ := Option.bind_eq_some_iff.mp given
        cases same
        rfl
      rw [List.forall₂_eq_eq_eq] at keys
      exact keys ▸ Json.nodup_of_ascending ascending
  | _ =>
      cases read

private theorem functional_of_ofJson? {value : Json} {document : Definitions}
    (read : ofJson? value = some document) : document.Functional := by
  obtain ⟨parts, _, others⟩ := Option.bind_eq_some_iff.mp read
  split at others
  · obtain ⟨types, typesRead, others⟩ := Option.bind_eq_some_iff.mp others
    obtain ⟨ledgerEntryTypes, entriesRead, others⟩ := Option.bind_eq_some_iff.mp others
    obtain ⟨fields, _, others⟩ := Option.bind_eq_some_iff.mp others
    obtain ⟨transactionResults, resultsRead, others⟩ := Option.bind_eq_some_iff.mp others
    obtain ⟨transactionTypes, transactionsRead, others⟩ := Option.bind_eq_some_iff.mp others
    cases others
    refine ⟨names_of_table? typesRead, fun table => ?_⟩
    cases table with
    | transactionType =>
        exact names_of_table? transactionsRead
    | ledgerEntryType =>
        exact names_of_table? entriesRead
    | transactionResult =>
        exact names_of_table? resultsRead
  · cases others

end Definitions

namespace Registry

variable {document other : Definitions} {registry otherRegistry : Registry}

/-- The order of the tables decides neither which fields are loaded nor which fault is
found first. -/
theorem ofDefinitions_reordered (functional : document.Functional)
    (reordered : document.Reordered other) :
    (ofDefinitions other).map fields = (ofDefinitions document).map fields := by
  have types : ∀ name, other.types.lookup name = document.types.lookup name :=
    fun name => (lookup_perm functional.types reordered.types.symm name).symm
  have added : addEntry other.types = addEntry document.types := by
    funext held entry
    simp only [addEntry, types]
  rw [ofDefinitions, ofDefinitions, reordered.fields, added]
  cases document.fields.foldlM (addEntry document.types) [] with
  | error fault =>
      rfl
  | ok fields =>
      rfl

private theorem table_of_ofDefinitions (loaded : ofDefinitions document = .ok registry)
    (table : EnumKind) :
    registry.table table = ⟨table, document.entries table⟩ := by
  obtain ⟨fields, _, rfl⟩ := Outcome.bind_pure_eq_ok.mp loaded
  cases table <;> rfl

/-- The fields of a loaded registry are those of its document, whichever order its tables
were loaded in. -/
theorem exists_ofDefinitions_of_loads {text : String} (loaded : Loads text registry) :
    ∃ document base, (Json.parseLoose? text).bind Definitions.ofJson? = some document ∧
      ofDefinitions document = .ok base ∧ base.fields = registry.fields := by
  obtain ⟨document, order, parsed, reordered, loaded⟩ := loaded
  obtain ⟨value, _, read⟩ := Option.bind_eq_some_iff.mp parsed
  have same := ofDefinitions_reordered (Definitions.functional_of_ofJson? read) reordered
  rw [loaded] at same
  cases found : ofDefinitions document with
  | error fault =>
      rw [found] at same
      cases same
  | ok base =>
      rw [found] at same
      exact ⟨document, base, parsed, found, (Except.ok.inj same).symm⟩

/-- Where no code that octets can hold is shared, the order of the tables does not count. -/
theorem alike_of_reordered (functional : document.Functional)
    (reordered : document.Reordered other)
    (unshared : ∀ table (code : Nat), EnumTable.Unshared (document.entries table) code)
    (loaded : ofDefinitions document = .ok registry)
    (otherLoaded : ofDefinitions other = .ok otherRegistry) : otherRegistry.Alike registry where
  fields := by
    have same := ofDefinitions_reordered functional reordered
    rw [loaded, otherLoaded] at same
    exact Except.ok.inj same
  codes table name := by
    rw [table_of_ofDefinitions loaded, table_of_ofDefinitions otherLoaded]
    exact EnumTable.code?_perm (functional.tables table) (reordered.tables table) name
  known table code := by
    rw [table_of_ofDefinitions loaded, table_of_ofDefinitions otherLoaded]
    exact EnumTable.isSome_name?_perm (reordered.tables table) code
  names table code := by
    rw [table_of_ofDefinitions loaded, table_of_ofDefinitions otherLoaded]
    exact EnumTable.name?_perm (unshared table code) (reordered.tables table)

/-- The tables of the ledger's own network share no codes. -/
theorem bundled_unshared (table : EnumKind) (code : Int) :
    EnumTable.Unshared (bundled.table table).entries code := by
  have codes : ∀ table ∈ [EnumKind.transactionType, .ledgerEntryType, .transactionResult],
      ((bundled.table table).entries.map (·.2)).Nodup := by
    decide +kernel
  have listed : table ∈ [EnumKind.transactionType, .ledgerEntryType, .transactionResult] := by
    cases table <;> decide
  exact EnumTable.unshared_of_nodup (codes table listed) code

open EnumTable in
/-- Tables that are filled from the entries in any order give each name the same code, and
show for a code one of the names that have it: any of them, as the order goes, so that the
order counts exactly if there are several. Documents that differ in the order of their
tables only are loaded with the same fields or refused for the same fault, and as long as no
code that octets can hold is shared, objects are encoded and decoded alike with them. In the
tables of the ledger's own network no code is shared. -/
theorem answers_in_any_order (kind : EnumKind) {entries : List (String × Int)}
    (names : (entries.map (·.1)).Nodup) :
    (∀ order, order.Perm entries → ∀ name,
      (Index.ofEntries order).code? name = (EnumTable.mk kind entries).code? name) ∧
    (∀ name code,
      (∃ order, order.Perm entries ∧ (Index.ofEntries order).name? code = some name) ↔
        (name, code) ∈ entries) ∧
    (∀ code,
      (∀ order, order.Perm entries →
        (Index.ofEntries order).name? code = (EnumTable.mk kind entries).name? code) ↔
        Unshared entries code) ∧
    (∀ text document, (Json.parseLoose? text).bind Definitions.ofJson? = some document →
      ∀ other, document.Reordered other →
        (ofDefinitions other).map fields = (ofDefinitions document).map fields ∧
        ∀ registry otherRegistry, ofDefinitions document = .ok registry →
          ofDefinitions other = .ok otherRegistry →
          (∀ table (code : Nat), Unshared (document.entries table) code) →
          ∀ addresses,
            (∀ bytes, Object.decode ⟨otherRegistry, addresses⟩ bytes =
              Object.decode ⟨registry, addresses⟩ bytes) ∧
            ∀ signingOnly value, Object.encode ⟨otherRegistry, addresses⟩ signingOnly value =
              Object.encode ⟨registry, addresses⟩ signingOnly value) ∧
    ∀ table code, Unshared (bundled.table table).entries code := by
  simp only [Index.name?_ofEntries kind]
  refine ⟨?_, fun name code => exists_order_iff, fun code => name?_perm_iff, ?_,
    bundled_unshared⟩
  · intro order same name
    have orderNames : (order.map (·.1)).Nodup := (same.map _).nodup_iff.mpr names
    rw [Index.code?_ofEntries kind orderNames, code?_perm names same]
  · intro text document parsed other reordered
    obtain ⟨value, _, read⟩ := Option.bind_eq_some_iff.mp parsed
    have functional := Definitions.functional_of_ofJson? read
    refine ⟨ofDefinitions_reordered functional reordered,
      fun registry otherRegistry loaded otherLoaded unshared addresses => ?_⟩
    have alike := alike_of_reordered functional reordered unshared loaded otherLoaded
    exact ⟨alike.decode addresses, alike.encode addresses⟩

/-- The types of a transaction, and the account it is of. -/
def transactionEntries : List FieldEntry :=
  [⟨"TransactionType", 2, false, true, true, "UInt16"⟩,
    ⟨"Account", 1, true, true, true, "AccountID"⟩]

/-- Definitions of a transaction of which there are these types. -/
def typed (transactionTypes : List (String × Int)) : Definitions :=
  ⟨[("AccountID", 8), ("UInt16", 1)], [], transactionEntries, [], transactionTypes⟩

/-- The text of such definitions, with these entries for the types. -/
def typedText (transactionTypes : String) : String :=
  "[\x7b\"UInt16\":1,\"AccountID\":8\x7d,\x7b\x7d,[" ++
    "[\"TransactionType\",[2,false,true,true,\"UInt16\"]]," ++
    "[\"Account\",[1,true,true,true,\"AccountID\"]]],\x7b\x7d," ++
    "\x7b" ++ transactionTypes ++ "\x7d]"

private theorem typed_reordered {left right : List (String × Int)} (same : right.Perm left) :
    (typed left).Reordered (typed right) := by
  refine ⟨rfl, .refl _, fun table => ?_⟩
  cases table with
  | transactionType =>
      exact same
  | _ =>
      exact .refl _

/-- The registry with these types. -/
def typedRegistry (transactionTypes : List (String × Int)) : Registry :=
  ⟨[⟨"TransactionType", "UInt16", 1, 2, false, true, true⟩,
      ⟨"Account", "AccountID", 8, 1, true, true, true⟩],
    [("AccountID", 8), ("UInt16", 1)], ⟨.transactionType, transactionTypes⟩,
    ⟨.ledgerEntryType, []⟩, ⟨.transactionResult, []⟩⟩

private theorem ofDefinitions_typed (transactionTypes : List (String × Int)) :
    ofDefinitions (typed transactionTypes) = .ok (typedRegistry transactionTypes) := by
  rfl

/-- Two types with codes of their own, in both orders. -/
theorem answers_in_any_order_types :
    (EnumTable.Index.ofEntries [("UNLModify", 102), ("Payment", 0)]).code? "UNLModify" =
        (EnumTable.mk .transactionType [("Payment", 0), ("UNLModify", 102)]).code? "UNLModify" ∧
      (∃ order, order.Perm [("Payment", 0), ("UNLModify", 102)] ∧
        (EnumTable.Index.ofEntries order).name? 0 = some "Payment") ∧
      (Json.parseLoose? (typedText "\"UNLModify\":102,\"Payment\":0")).bind
          Definitions.ofJson? = some (typed [("Payment", 0), ("UNLModify", 102)]) ∧
      Object.decode ⟨typedRegistry [("UNLModify", 102), ("Payment", 0)], CheckedText.base58⟩
          [0x12, 0, 102] =
        Object.decode ⟨typedRegistry [("Payment", 0), ("UNLModify", 102)], CheckedText.base58⟩
          [0x12, 0, 102] := by
  have swapped : [("UNLModify", (102 : Int)), ("Payment", 0)].Perm
      [("Payment", 0), ("UNLModify", 102)] := .swap _ _ _
  have parsed : (Json.parseLoose? (typedText "\"UNLModify\":102,\"Payment\":0")).bind
      Definitions.ofJson? = some (typed [("Payment", 0), ("UNLModify", 102)]) := by
    decide +kernel
  have unshared : ∀ table (code : Nat), EnumTable.Unshared
      ((typed [("Payment", 0), ("UNLModify", 102)]).entries table) code := by
    intro table code
    apply EnumTable.unshared_of_nodup
    cases table <;> decide
  have distinct : ([("Payment", (0 : Int)), ("UNLModify", 102)].map (·.1)).Nodup := by
    decide
  obtain ⟨codes, names, _, documents, _⟩ := answers_in_any_order .transactionType distinct
  obtain ⟨_, loaded⟩ := documents _ _ parsed _ (typed_reordered swapped)
  obtain ⟨decoded, _⟩ := loaded _ _ (ofDefinitions_typed _) (ofDefinitions_typed _) unshared
    CheckedText.base58
  exact ⟨codes _ swapped "UNLModify", (names "Payment" 0).mpr List.mem_cons_self, parsed,
    decoded [0x12, 0, 102]⟩

/-- Of two names with one code each is shown in one of the two orders, and only in one of
them the account of a transaction that changes the validators is left out. -/
theorem shared_code_shown_by_either :
    (EnumTable.Index.ofEntries [("Other", 7), ("UNLModify", 7)]).name? 7 = some "Other" ∧
      (EnumTable.Index.ofEntries [("UNLModify", 7), ("Other", 7)]).name? 7 = some "UNLModify" ∧
      (Json.parseLoose? (typedText "\"Other\":7,\"UNLModify\":7")).bind
          Definitions.ofJson? = some (typed [("Other", 7), ("UNLModify", 7)]) ∧
      (typed [("Other", 7), ("UNLModify", 7)]).Reordered
        (typed [("UNLModify", 7), ("Other", 7)]) ∧
      (Object.decode ⟨typedRegistry [("Other", 7), ("UNLModify", 7)], CheckedText.base58⟩
            [0x12, 0, 7] = .ok (.object [("TransactionType", .string "Other")]) ∧
        Object.decode ⟨typedRegistry [("UNLModify", 7), ("Other", 7)], CheckedText.base58⟩
            [0x12, 0, 7] = .ok (.object [("TransactionType", .string "UNLModify")])) ∧
      Object.encode ⟨typedRegistry [("Other", 7), ("UNLModify", 7)], CheckedText.base58⟩ false
          (.object [("Account", .string ""), ("TransactionType", .string "UNLModify")]) =
        .ok ([0x12, 0, 7, 0x81, 20] ++ List.replicate 20 0) ∧
      Object.encode ⟨typedRegistry [("UNLModify", 7), ("Other", 7)], CheckedText.base58⟩ false
          (.object [("Account", .string ""), ("TransactionType", .string "UNLModify")]) =
        .ok [0x12, 0, 7, 0x81, 0] := by
  refine ⟨rfl, rfl, ?_, typed_reordered (.swap _ _ _), ⟨rfl, rfl⟩,
    Outcome.eq_ok_of_toOption ?_, Outcome.eq_ok_of_toOption ?_⟩
  · decide +kernel
  · decide +kernel
  · decide +kernel

end Registry

end LedgerWire
