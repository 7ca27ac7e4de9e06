import LedgerWire.Proofs.Entries
import LedgerWire.Proofs.HexDigits
import LedgerWire.Proofs.LedgerHeaderOctets
import LedgerWire.Proofs.Spelling

/-!
# Ledger headers as documents

A header is read back from the object that shows it. Of any object nothing counts but the
entries under the names of the parts, and a whole number may stand there as a number or
by its digits.
-/

namespace LedgerWire

open Decimal (digitChar)

/-! ## Whole numbers and their digits -/

namespace Record

/-- A whole number as a document gives it: as a number, or by its digits, perhaps behind a
plus. -/
inductive Numeral (value : Nat) : Json → Prop
  | number : Numeral value (Json.ofNat value)
  | digits (plus : Bool) (digits : List (Fin 10)) (nonempty : digits ≠ [])
      (spelled : Text.wholeValue digits = value) :
      Numeral value (.string (String.ofList
        ((if plus then ['+'] else []) ++ digits.map digitChar)))

private theorem numeral_toString (value : Nat) : Numeral value (.string (toString value)) := by
  obtain ⟨digits, nonempty, shown, spelled⟩ := Text.whole?_eq_some.mp (Text.whole?_toString value)
  have numeral : Numeral value (.string (String.ofList (digits.map digitChar))) :=
    .digits false digits nonempty spelled
  rwa [← shown, String.ofList_toList] at numeral

private theorem unsigned64?_digits (plus : Bool) {digits : List (Fin 10)} (nonempty : digits ≠ [])
    (bound : Text.wholeValue digits < 2 ^ 64) :
    Text.unsigned64? ((if plus then ['+'] else []) ++ digits.map digitChar) =
      some (Text.wholeValue digits) := by
  have read : Text.unsigned64? ((if plus then ['+'] else []) ++ digits.map digitChar) =
      (Text.whole? (digits.map digitChar)).filter fun value => value < 2 ^ 64 := by
    cases plus with
    | true =>
        rfl
    | false =>
        change Text.unsigned64? (digits.map digitChar) = _
        unfold Text.unsigned64?
        split
        · rename_i rest same
          have first := Decimal.head?_digits digits '+' (by rw [same]; rfl)
          exact absurd rfl first.2
        · rfl
  rw [read, Text.whole?_digits nonempty, Option.filter_some, decide_eq_true bound, if_pos rfl]

/-- However a whole number is given, it is taken if it is below the limit, and else it is
out of range. -/
theorem unsigned_of_numeral {value : Nat} {json : Json} (numeral : Numeral value json)
    (bound : value < 2 ^ 64) (limit : Nat) :
    unsigned limit json = if value < limit then .ok value else .error (.outOfRange value) := by
  cases numeral with
  | number =>
      rfl
  | digits plus digits nonempty spelled =>
      rw [← spelled] at bound ⊢
      simp only [unsigned, String.toList_ofList, unsigned64?_digits plus nonempty bound]
      rfl

/-- The reader takes a whole number for the same however it is given. -/
def IgnoresNumeral {α : Type} (read : Json → Except RecordFault α) : Prop :=
  ∀ {value : Nat} {given restated : Json}, value < 2 ^ 64 → Numeral value given →
    Numeral value restated → read restated = read given

private theorem ignoresNumeral_bind {α : Type} (limit : Nat) (next : Nat → Except RecordFault α) :
    IgnoresNumeral fun json => unsigned limit json >>= next := by
  intro value given restated bound one other
  simp only [unsigned_of_numeral one bound, unsigned_of_numeral other bound]

private theorem ignoresNumeral_optional {α : Type} {read : Json → Except RecordFault α}
    (ignores : IgnoresNumeral read) : IgnoresNumeral (optional read) := by
  have present {value : Nat} {json : Json} (numeral : Numeral value json) :
      optional read json = some <$> read json := by
    cases numeral <;> rfl
  intro value given restated bound one other
  rw [present one, present other, ignores bound one other]

end Record

namespace LedgerHeader

open Record

/-! ## Objects that give the same header -/

/-- The names of the parts that are whole numbers. -/
def wholeNames : List String :=
  ["ledger_index", "total_coins", "parent_close_time", "close_time", "close_time_resolution",
    "close_flags"]

def partNames : List String :=
  wholeNames ++ ["parent_hash", "transaction_hash", "account_hash"]

/-- The entries of an object that is stated otherwise: whole numbers may be given in
another way, and entries may be added under names that no part has. -/
inductive Restated : List (String × Json) → List (String × Json) → Prop
  | nil : Restated [] []
  | kept (entry : String × Json) {entries others : List (String × Json)}
      (behind : Restated entries others) : Restated (entry :: entries) (entry :: others)
  | whole {name : String} (isWhole : name ∈ wholeNames) {value : Nat} (bound : value < 2 ^ 64)
      {given restated : Json} (one : Numeral value given) (other : Numeral value restated)
      {entries others : List (String × Json)} (behind : Restated entries others) :
      Restated ((name, given) :: entries) ((name, restated) :: others)
  | added {name : String} (isUnknown : name ∉ partNames) (value : Json)
      {entries others : List (String × Json)} (behind : Restated entries others) :
      Restated entries ((name, value) :: others)

variable {entries others : List (String × Json)}

private theorem part?_of_restated {α : Type} {name : String} {read : Json → Except RecordFault α}
    (restated : Restated entries others) (isPart : name ∈ partNames)
    (ignores : name ∈ wholeNames → IgnoresNumeral read) :
    part? others name read = part? entries name read := by
  unfold part?
  induction restated with
  | nil =>
      rfl
  | kept entry behind inductionHypothesis =>
      rw [List.lookup_cons, List.lookup_cons]
      cases name == entry.1 with
      | true =>
          rfl
      | false =>
          exact inductionHypothesis
  | @whole held isWhole value bound given restated one other _ _ behind inductionHypothesis =>
      rw [List.lookup_cons, List.lookup_cons]
      cases same : name == held with
      | true =>
          rw [← eq_of_beq same] at isWhole
          simp only [Option.mapM_some, ignores isWhole bound one other]
      | false =>
          exact inductionHypothesis
  | @added unknown isUnknown value _ _ behind inductionHypothesis =>
      have differs : (name == unknown) = false := by
        rw [beq_eq_false_iff_ne]
        rintro rfl
        exact isUnknown isPart
      rw [List.lookup_cons, differs]
      exact inductionHypothesis

private theorem ofEntries_of_restated (restated : Restated entries others) :
    ofEntries others = ofEntries entries := by
  have narrow : IgnoresNumeral unsigned8 := ignoresNumeral_bind (2 ^ 8) _
  have middle : IgnoresNumeral unsigned32 := ignoresNumeral_bind (2 ^ 32) _
  have wide : IgnoresNumeral unsigned64 := ignoresNumeral_bind (2 ^ 64) _
  have hash (name : String) (isPart : name ∈ partNames) (isHash : name ∉ wholeNames) :
      part? others name (Record.hash 32) = part? entries name (Record.hash 32) :=
    part?_of_restated restated isPart fun isWhole => absurd isWhole isHash
  have number {α : Type} {read : Json → Except RecordFault α} (ignores : IgnoresNumeral read)
      (name : String) (isPart : name ∈ partNames) :
      part? others name read = part? entries name read :=
    part?_of_restated restated isPart fun _ => ignores
  unfold ofEntries
  rw [hash "account_hash" (by decide) (by decide),
    hash "parent_hash" (by decide) (by decide),
    hash "transaction_hash" (by decide) (by decide),
    number (ignoresNumeral_optional narrow) "close_flags" (by decide),
    number middle "close_time" (by decide),
    number narrow "close_time_resolution" (by decide),
    number middle "ledger_index" (by decide),
    number (ignoresNumeral_optional middle) "parent_close_time" (by decide),
    number wide "total_coins" (by decide)]

theorem ofEntries_perm (distinct : (entries.map (·.1)).Nodup) (same : others.Perm entries) :
    ofEntries others = ofEntries entries := by
  have lookups : ∀ name, others.lookup name = entries.lookup name := fun name =>
    (lookup_perm distinct same.symm name).symm
  unfold ofEntries part?
  simp only [lookups]

/-! ## The object that shows a header -/

private theorem unsigned8_numeral {json : Json} {value : UInt8}
    (numeral : Numeral value.toNat json) : unsigned8 json = .ok value := by
  have bound := value.toNat_lt
  rw [unsigned8, unsigned_of_numeral numeral (by omega), if_pos bound, Outcome.ok_bind,
    UInt8.ofNat_toNat]
  rfl

private theorem unsigned32_numeral {json : Json} {value : UInt32}
    (numeral : Numeral value.toNat json) : unsigned32 json = .ok value := by
  have bound := value.toNat_lt
  rw [unsigned32, unsigned_of_numeral numeral (by omega), if_pos bound, Outcome.ok_bind,
    UInt32.ofNat_toNat]
  rfl

private theorem unsigned64_numeral {json : Json} {value : UInt64}
    (numeral : Numeral value.toNat json) : unsigned64 json = .ok value := by
  have bound := value.toNat_lt
  rw [unsigned64, unsigned_of_numeral numeral bound, if_pos bound, Outcome.ok_bind,
    UInt64.ofNat_toNat]
  rfl

private theorem hash_toHex {width : Nat} (hash : Hash width) :
    Record.hash width (.string hash.toHex) = .ok hash := by
  rw [Record.hash, text, Outcome.ok_bind, Hash.ofHex_toHex]
  rfl

theorem ofJson_toJson (header : LedgerHeader) : ofJson header.toJson = .ok header := by
  have narrow (value : UInt8) : unsigned8 (Json.ofNat value.toNat) = .ok value :=
    unsigned8_numeral .number
  have middle (value : UInt32) : unsigned32 (Json.ofNat value.toNat) = .ok value :=
    unsigned32_numeral .number
  have wide (value : UInt64) : unsigned64 (.string value.toNat.repr) = .ok value :=
    unsigned64_numeral (numeral_toString value.toNat)
  have present {α : Type} (read : Json → Except RecordFault α) (value : Nat) :
      Record.optional read (Json.ofNat value) = some <$> read (Json.ofNat value) := rfl
  obtain ⟨index, totalCoins, parentHash, transactionHash, accountHash, parentCloseTime, closeTime,
    closeTimeResolution, closeFlags⟩ := header
  cases parentCloseTime <;> cases closeFlags <;>
    simp [toJson, ofJson, ofEntries, part?, List.lookup_cons, required, hash_toHex, narrow, middle,
      wide, present]

/-- A header is read back from the object that shows it, whichever of its parts are
unknown, and restating an object, or putting its entries into another order, changes
nothing of what is read. -/
theorem document_determines_header :
    (∀ header : LedgerHeader, ofJson header.toJson = .ok header) ∧
    (∀ entries others, Restated entries others →
      ofJson (.object others) = ofJson (.object entries)) ∧
    ∀ entries others, (entries.map (·.1)).Nodup → others.Perm entries →
      ofJson (.object others) = ofJson (.object entries) :=
  ⟨ofJson_toJson, fun _ _ => ofEntries_of_restated, fun _ _ => ofEntries_perm⟩

/-- The entries of a closed ledger with its index in digits, its total as a number, and an
entry that is no part of a header. -/
def closedLedgerRestated : List (String × Json) :=
  [("closed", .bool true),
    ("ledger_index", .string "+0038129"),
    ("total_coins", Json.ofNat 99999999999999997),
    ("parent_hash", .string closedLedger.parentHash.toHex),
    ("transaction_hash", .string closedLedger.transactionHash.toHex),
    ("account_hash", .string closedLedger.accountHash.toHex),
    ("parent_close_time", Json.ofNat 410062560),
    ("close_time", Json.ofNat 410062570),
    ("close_time_resolution", Json.ofNat 10),
    ("close_flags", Json.ofNat 0)]

/-- A restated ledger is read as the ledger, also with its entries in reverse. -/
theorem document_determines_closedLedger :
    ofJson (.object closedLedgerRestated) = .ok closedLedger ∧
      ofJson (.object closedLedgerRestated.reverse) = .ok closedLedger := by
  obtain ⟨readBack, restated, reordered⟩ := document_determines_header
  have index : Numeral 38129 (.string "+0038129") :=
    .digits true [0, 0, 3, 8, 1, 2, 9] (by decide) (by decide)
  have total : Numeral 99999999999999997 (.string "99999999999999997") :=
    numeral_toString 99999999999999997
  have others : ∃ entries, closedLedger.toJson = .object entries ∧
      Restated entries closedLedgerRestated :=
    ⟨_, rfl, .added (by decide) _ <| .whole (by decide) (by decide) .number index <|
      .whole (by decide) (by decide) total .number <| .kept _ <| .kept _ <| .kept _ <|
      .kept _ <| .kept _ <| .kept _ <| .kept _ .nil⟩
  obtain ⟨entries, shown, restatedEntries⟩ := others
  have read : ofJson (.object closedLedgerRestated) = .ok closedLedger := by
    rw [restated _ _ restatedEntries, ← shown, readBack]
  refine ⟨read, ?_⟩
  rw [reordered closedLedgerRestated _ (by decide) (List.reverse_perm _), read]

end LedgerHeader

end LedgerWire
