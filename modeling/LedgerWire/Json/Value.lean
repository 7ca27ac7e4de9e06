import LedgerWire.Json.Binary64

namespace LedgerWire

/-- A number of a document: a whole number of at most 64 bits, or a binary
floating-point number. `whole` is below `2 ^ 64`, and `minus` stands for a
negation and is between `1` and `2 ^ 63`. -/
inductive Number
  | whole (value : Nat)
  | minus (value : Nat)
  | float (value : Binary64)
  deriving DecidableEq, Repr

namespace Number

def toText : Number → String
  | .whole value => toString value
  | .minus value => "-" ++ toString value
  | .float value => value.toText

/-- The number as an unsigned 64-bit integer. -/
def toUnsigned? : Number → Option Nat
  | .whole value => some value
  | _ => none

/-- The number as a signed 64-bit integer. -/
def toSigned? : Number → Option Int
  | .whole value => if value < 2 ^ 63 then some value else none
  | .minus value => some (-value)
  | .float _ => none

/-- The whole number nearest to how a literal writes it: a literal outside the
64-bit ranges, or a negative zero, is a floating-point number. -/
def ofWhole? (negative : Bool) (value : Nat) : Option Number :=
  let float := (Binary64.ofDecimal? value 0).map fun magnitude =>
    .float { magnitude with negative }
  if negative then
    if value = 0 ∨ 2 ^ 63 < value then float else some (.minus value)
  else
    if value < 2 ^ 64 then some (.whole value) else float

end Number

/-- A document. The entries of an object stand in ascending key order without
repetition in every document that a reader of this library returns. -/
inductive Json
  | null
  | bool (value : Bool)
  | number (value : Number)
  | string (text : String)
  | array (items : List Json)
  | object (entries : List (String × Json))

namespace Json

instance : Inhabited Json := ⟨.null⟩

/-! ## Building -/

/-- Puts an entry at its place, unless there is one with the same key. -/
def addEntry (key : String) (value : Json) :
    List (String × Json) → List (String × Json)
  | [] => [(key, value)]
  | (other, held) :: rest =>
      if key < other then
        (key, value) :: (other, held) :: rest
      else if key = other then
        (other, held) :: rest
      else
        (other, held) :: addEntry key value rest

/-- The object with these entries; of two with one key the later counts. -/
def ofEntries (entries : List (String × Json)) : Json :=
  .object (entries.foldr (fun (key, value) done => addEntry key value done) [])

def ofNat (value : Nat) : Json := .number (.whole value)

def ofInt (value : Int) : Json :=
  if value < 0 then .number (.minus value.natAbs) else .number (.whole value.toNat)

/-! ## Looking inside -/

/-- The value under a key of an object. -/
def get? (key : String) : Json → Option Json
  | .object entries => entries.lookup key
  | _ => none

def string? : Json → Option String
  | .string text => some text
  | _ => none

mutual

/-- How many arrays and objects are nested inside one another. -/
def depth : Json → Nat
  | .array items => depthOfItems items + 1
  | .object entries => depthOfEntries entries + 1
  | _ => 0

def depthOfItems : List Json → Nat
  | [] => 0
  | item :: rest => max (depth item) (depthOfItems rest)

def depthOfEntries : List (String × Json) → Nat
  | [] => 0
  | (_, value) :: rest => max (depth value) (depthOfEntries rest)

end

/-! ## Comparing -/

mutual

def same : Json → Json → Bool
  | .null, .null => true
  | .bool left, .bool right => left == right
  | .number left, .number right => left == right
  | .string left, .string right => left == right
  | .array left, .array right => sameItems left right
  | .object left, .object right => sameEntries left right
  | _, _ => false

def sameItems : List Json → List Json → Bool
  | [], [] => true
  | left :: lefts, right :: rights => same left right && sameItems lefts rights
  | _, _ => false

def sameEntries : List (String × Json) → List (String × Json) → Bool
  | [], [] => true
  | (leftKey, left) :: lefts, (rightKey, right) :: rights =>
      leftKey == rightKey && same left right && sameEntries lefts rights
  | _, _ => false

end

mutual

theorem same_iff : (left right : Json) → (same left right = true ↔ left = right)
  | .null, right => by
      cases right <;> simp [same]
  | .bool value, right => by
      cases right <;> simp [same]
  | .number value, right => by
      cases right <;> simp [same]
  | .string text, right => by
      cases right <;> simp [same]
  | .array items, right => by
      cases right with
      | array others =>
          rw [same, sameItems_iff items others, array.injEq]
      | _ =>
          simp [same]
  | .object entries, right => by
      cases right with
      | object others =>
          rw [same, sameEntries_iff entries others, object.injEq]
      | _ =>
          simp [same]

theorem sameItems_iff : (left right : List Json) → (sameItems left right = true ↔ left = right)
  | [], right => by
      cases right <;> simp [sameItems]
  | item :: items, right => by
      cases right with
      | nil =>
          simp [sameItems]
      | cons other others =>
          rw [sameItems, Bool.and_eq_true, same_iff item other, sameItems_iff items others,
            List.cons.injEq]

theorem sameEntries_iff :
    (left right : List (String × Json)) → (sameEntries left right = true ↔ left = right)
  | [], right => by
      cases right <;> simp [sameEntries]
  | (key, value) :: entries, right => by
      cases right with
      | nil =>
          simp [sameEntries]
      | cons other others =>
          obtain ⟨otherKey, otherValue⟩ := other
          rw [sameEntries, Bool.and_eq_true, Bool.and_eq_true, beq_iff_eq,
            same_iff value otherValue, sameEntries_iff entries others, List.cons.injEq,
            Prod.mk.injEq]

end

instance : DecidableEq Json := fun left right =>
  decidable_of_iff (same left right = true) (same_iff left right)

end Json

end LedgerWire
