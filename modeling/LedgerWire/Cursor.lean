import LedgerWire.Error

namespace LedgerWire

/-- A place in a string of octets: how many have been read, the octets that
follow, and how many more objects and arrays may be opened inside those that are
open around the place. -/
structure Cursor where
  position : Nat
  rest : Bytes
  levels : Nat
  deriving DecidableEq, Repr

namespace Cursor

/-- The deepest nesting of objects and arrays that is followed. -/
def maxDepth : Nat := 64

/-- The place in front of the first octet. -/
def start (bytes : Bytes) : Cursor := ⟨0, bytes, maxDepth⟩

def remaining (cursor : Cursor) : Nat := cursor.rest.length

def isEnd (cursor : Cursor) : Bool := cursor.rest.isEmpty

end Cursor

/-- A reader moves the cursor as it goes. A reader that fails leaves the cursor
at the place of the failure. -/
abbrev Read := EStateM Error Cursor

namespace Read

/-! ## Octets -/

def isEnd : Read Bool := return (← get).isEnd

/-- The next octet, which stays unread. -/
def peek : Read UInt8 := fun cursor =>
  match cursor.rest with
  | [] => .error (.unexpectedEnd 1 0) cursor
  | byte :: _ => .ok byte cursor

/-- Takes exactly `count` octets. With fewer left none is taken. -/
def octets (count : Nat) : Read Bytes := fun cursor =>
  let taken := cursor.rest.take count
  if taken.length < count then
    .error (.unexpectedEnd count cursor.remaining) cursor
  else
    .ok taken
      { cursor with
        position := cursor.position + count
        rest := cursor.rest.drop count }

/-- The number that the next `width` octets spell, most significant first. -/
def number (width : Nat) : Read Nat :=
  return Bytes.toNat (← octets width)

def byte : Read Nat := number 1

def hash (width : Nat) : Read (Hash width) := do
  let bytes ← octets width
  match Hash.ofBytes width bytes with
  | .ok hash => return hash
  | .error fault => throw fault

/-! ## Nesting -/

/-- Runs a reader one level deeper, unless the cursor stands too deep already. -/
def nested {α : Type} (body : Read α) : Read α := fun cursor =>
  match cursor.levels with
  | 0 => .error (.nestingTooDeep Cursor.maxDepth) cursor
  | levels + 1 =>
      match body { cursor with levels } with
      | .ok value after => .ok value { after with levels := after.levels + 1 }
      | .error fault after => .error fault { after with levels := after.levels + 1 }

/-- The value that a reader finds in front of the octets. -/
def ofBytes {α : Type} (reader : Read α) (bytes : Bytes) : Except Error α :=
  match reader (Cursor.start bytes) with
  | .ok value _ => .ok value
  | .error fault _ => .error fault

end Read

end LedgerWire
