import LedgerWire.Proofs.AnnouncedLengths

/-!
# Places of a cursor

A reader is asked for something and succeeds or fails. Either way it leaves the cursor
at a place that is not before the one it began at, over the same octets and as deep in
objects and arrays. So whatever is asked one after another, also inside nested reads
and behind failures, the position never passes the end of the octets, the octets that
remain are those behind it, and the levels that are left tell how many nested reads
are open.
-/

namespace LedgerWire

namespace Cursor

/-- The cursor stands in these octets: it has passed as many of them as its position
tells, and the others follow. -/
structure Within (bytes : Bytes) (cursor : Cursor) : Prop where
  position_le : cursor.position ≤ bytes.length
  rest_eq : cursor.rest = bytes.drop cursor.position

/-- From one place to another some octets are passed and nothing else changes. -/
def Passes (before after : Cursor) : Prop :=
  ∃ count ≤ before.remaining,
    after = { before with position := before.position + count, rest := before.rest.drop count }

variable {bytes : Bytes} {before middle after : Cursor}

private theorem within_start (bytes : Bytes) : (start bytes).Within bytes := ⟨Nat.zero_le _, rfl⟩

theorem Within.remaining_eq (within : before.Within bytes) :
    before.remaining = bytes.length - before.position := by
  rw [remaining, within.rest_eq, List.length_drop]

namespace Passes

theorem refl (cursor : Cursor) : cursor.Passes cursor := ⟨0, Nat.zero_le _, rfl⟩

theorem trans (first : before.Passes middle) (second : middle.Passes after) :
    before.Passes after := by
  obtain ⟨count, bound, rfl⟩ := first
  obtain ⟨further, furtherBound, rfl⟩ := second
  rw [remaining, List.length_drop] at furtherBound
  unfold remaining at bound
  refine ⟨count + further, ?_, ?_⟩
  · unfold remaining
    omega
  · rw [List.drop_drop, Nat.add_assoc]

private theorem position_le (passes : before.Passes after) : before.position ≤ after.position := by
  obtain ⟨count, _, rfl⟩ := passes
  exact Nat.le_add_right _ _

private theorem levels_eq (passes : before.Passes after) : after.levels = before.levels := by
  obtain ⟨_, _, rfl⟩ := passes
  rfl

theorem within (passes : before.Passes after) (within : before.Within bytes) :
    after.Within bytes := by
  obtain ⟨count, bound, rfl⟩ := passes
  rw [within.remaining_eq] at bound
  have position := within.position_le
  refine ⟨?_, ?_⟩
  · change before.position + count ≤ bytes.length
    omega
  · change before.rest.drop count = bytes.drop (before.position + count)
    rw [within.rest_eq, List.drop_drop]

end Passes

end Cursor

/-! ## Readers -/

namespace Read

variable {α β : Type}

/-- The place where a reader stops, be it that it succeeds or fails. -/
def stop (reader : Read α) (cursor : Cursor) : Cursor :=
  match reader cursor with
  | .ok _ after => after
  | .error _ after => after

/-- The level that a nested read takes is given back however the read ends. -/
theorem stop_nested (body : Read α) (position : Nat) (rest : Bytes) (levels : Nat) :
    (nested body).stop ⟨position, rest, levels + 1⟩ =
      let after := body.stop ⟨position, rest, levels⟩
      { after with levels := after.levels + 1 } := by
  simp only [stop, nested]
  cases body ⟨position, rest, levels⟩ <;> rfl

/-- Wherever it begins, the reader only passes octets until it stops. -/
def Steady (reader : Read α) : Prop := ∀ before : Cursor, before.Passes (reader.stop before)

namespace Steady

variable {reader : Read α}

theorem pure (value : α) : Steady (pure value : Read α) := Cursor.Passes.refl

theorem throw (fault : Error) : Steady (throw fault : Read α) := Cursor.Passes.refl

theorem bind {next : α → Read β} (head : Steady reader) (tail : ∀ value, Steady (next value)) :
    Steady (reader >>= next) := by
  intro before
  have first := head before
  unfold stop at first ⊢
  cases reached : reader before with
  | ok value middle =>
      rw [reached] at first
      rw [bind_of_ok reached]
      exact first.trans (tail value middle)
  | error fault middle =>
      rw [reached] at first
      rw [bind_of_error reached]
      exact first

theorem bind_pure (head : Steady reader) (last : α → β) :
    Steady (reader >>= fun value => Pure.pure (last value)) :=
  head.bind fun value => pure (last value)

theorem map (steady : Steady reader) (function : α → β) : Steady (function <$> reader) := by
  rw [map_eq_pure_bind]
  exact steady.bind_pure function

theorem ite {condition : Prop} [Decidable condition] {first second : Read α}
    (yes : Steady first) (no : Steady second) : Steady (if condition then first else second) := by
  split
  · exact yes
  · exact no

/-- What a reader does may depend on where it begins. -/
theorem get {next : Cursor → Read α} (steady : ∀ cursor, Steady (next cursor)) :
    Steady (get >>= next) := by
  intro before
  unfold stop
  rw [bind_of_ok (get_apply before)]
  exact steady before before

theorem isEnd : Steady isEnd := get fun cursor => pure cursor.isEnd

theorem peek : Steady peek := by
  intro before
  unfold stop Read.peek
  cases before.rest <;> exact Cursor.Passes.refl before

theorem octets (count : Nat) : Steady (octets count) := by
  intro before
  by_cases short : (before.rest.take count).length < count
  · rw [stop, Read.octets, if_pos short]
    exact Cursor.Passes.refl before
  · rw [stop, Read.octets, if_neg short]
    rw [List.length_take, not_lt] at short
    exact ⟨count, short.trans (Nat.min_le_right _ _), rfl⟩

theorem number (width : Nat) : Steady (number width) := (octets width).bind_pure Bytes.toNat

theorem hash (width : Nat) : Steady (hash width) := by
  refine (octets width).bind fun bytes => ?_
  split
  · exact pure _
  · exact throw _

theorem nested {body : Read α} (inside : Steady body) : Steady (nested body) := by
  rintro ⟨position, rest, levels⟩
  cases levels with
  | zero =>
      exact Cursor.Passes.refl _
  | succ levels =>
      obtain ⟨count, bound, after⟩ := inside ⟨position, rest, levels⟩
      rw [stop_nested, after]
      exact ⟨count, bound, rfl⟩

end Steady

/-- With fewer octets left than asked for, the cursor does not move. -/
theorem octets_eq_error {count : Nat} {fault : Error} {before after : Cursor}
    (failed : octets count before = .error fault after) : after = before := by
  unfold octets at failed
  dsimp only at failed
  split at failed
  · cases failed
    rfl
  · cases failed

end Read

open Read

/-! ### Lengths and headers -/

theorem Length.steady_read : Steady Length.read := by
  refine (Steady.number 1).bind fun first => ?_
  apply (Steady.pure first).ite
  apply ((Steady.number 1).bind_pure _).ite
  apply Steady.ite
  · exact (Steady.number 1).bind fun middle => (Steady.number 1).bind_pure _
  · exact Steady.throw _

theorem Length.steady_readFrame : Steady Length.readFrame :=
  Length.steady_read.bind Steady.octets

namespace Header

theorem steady_readCode (half : Nat) (fault : Nat → HeaderFault) :
    Steady (readCode half fault) := by
  refine Steady.ite ((Steady.number 1).bind fun code => ?_) (Steady.pure half)
  split
  · exact Steady.throw _
  · exact Steady.pure code

theorem steady_read : Steady read := by
  rw [read_eq]
  exact (Steady.number 1).bind fun first =>
    (steady_readCode _ _).bind fun typeCode => (steady_readCode _ _).bind_pure _

theorem steady_readField (registry : Registry) : Steady (readField registry) := by
  refine steady_read.bind fun (typeCode, nth) => ?_
  dsimp only
  cases registry.fieldAt? typeCode nth with
  | some field =>
      exact Steady.pure field
  | none =>
      exact Steady.throw _

end Header

/-! ### Scalars -/

theorem Currency.steady_read : Steady Currency.read := (Steady.hash 20).bind_pure Currency.mk

namespace Hop

theorem steady_readPart {α : Type} {reader : Read α} (steady : Steady reader) (present : Bool) :
    Steady (readPart present reader) := (steady.map some).ite (Steady.pure none)

theorem steady_read : Steady read := by
  rw [read_eq]
  refine (Steady.number 1).bind fun flags => (Steady.throw _).ite ?_
  exact (steady_readPart (Steady.hash 20) _).bind fun account =>
    (steady_readPart Currency.steady_read _).bind fun currency =>
      (steady_readPart (Steady.hash 20) _).bind_pure _

end Hop

namespace PathSet

theorem steady_readHops (fuel : Nat) : Steady (readHops fuel) := by
  induction fuel with
  | zero =>
      exact Steady.throw _
  | succ fuel inductionHypothesis =>
      refine Steady.peek.bind fun next => (Steady.pure []).ite ?_
      exact Hop.steady_read.bind fun hop => inductionHypothesis.bind_pure _

theorem steady_readPaths (fuel : Nat) : Steady (readPaths fuel) := by
  induction fuel with
  | zero =>
      exact Steady.throw _
  | succ fuel inductionHypothesis =>
      refine Steady.get fun cursor => (steady_readHops _).bind fun path => ?_
      exact (Steady.number 1).bind fun mark =>
        (inductionHypothesis.bind_pure _).ite (Steady.pure [path])

theorem steady_read : Steady read :=
  Steady.get fun _ => (steady_readPaths _).bind_pure _

end PathSet

theorem Amount.steady_read : Steady Amount.read := by
  refine Steady.peek.bind fun first => ((Steady.number 8).bind_pure _).ite ?_
  exact (Steady.number 8).bind fun value =>
    Currency.steady_read.bind fun currency => (Steady.hash 20).bind_pure _

namespace Scalar

theorem steady_readHash (width : Nat) (size : Option Nat) : Steady (readHash width size) := by
  unfold readHash
  split
  · exact Steady.hash width
  · exact Steady.pure _
  · exact (Steady.hash width).ite (Steady.throw _)

theorem steady_readHashes (width count : Nat) : Steady (readHashes width count) := by
  induction count with
  | zero =>
      exact Steady.pure []
  | succ count inductionHypothesis =>
      exact (Steady.hash width).bind fun hash => inductionHypothesis.bind_pure _

theorem steady_read (size : Option Nat) (kind : ScalarKind) : Steady (read size kind) := by
  cases kind with
  | uint8 =>
      exact (Steady.number 1).bind_pure _
  | uint16 =>
      exact (Steady.number 2).bind_pure _
  | uint32 =>
      exact (Steady.number 4).bind_pure _
  | uint64 =>
      exact (Steady.number 8).bind_pure _
  | hash128 =>
      exact (steady_readHash 16 size).bind_pure _
  | hash160 =>
      exact (steady_readHash 20 size).bind_pure _
  | hash256 =>
      exact (steady_readHash 32 size).bind_pure _
  | amount =>
      exact Amount.steady_read.bind_pure _
  | blob =>
      cases size with
      | none =>
          exact Steady.throw _
      | some size =>
          exact (Steady.octets size).bind_pure _
  | account =>
      exact (steady_readHash 20 size).bind_pure _
  | pathSet =>
      exact PathSet.steady_read.bind_pure _
  | vector256 =>
      cases size with
      | none =>
          exact Steady.throw _
      | some size =>
          exact ((steady_readHashes 32 (size / 32)).bind_pure _).ite (Steady.throw _)
  | named table =>
      exact ((Steady.number table.width).bind_pure _).bind_pure _

end Scalar

/-! ### Values of fields -/

namespace Object

variable {context : Context} {readValue : Field → Read Json}

theorem steady_readFields (values : ∀ field, Steady (readValue field)) (marker : String)
    (fuel : Nat) : Steady (readFields context readValue marker fuel) := by
  induction fuel with
  | zero =>
      exact Steady.pure []
  | succ fuel inductionHypothesis =>
      rw [readFields_succ]
      refine Steady.isEnd.bind fun isEnd => (Steady.pure []).ite ?_
      refine (Header.steady_readField _).bind fun field => (Steady.pure []).ite ?_
      exact (values field).bind fun value => inductionHypothesis.map _

theorem steady_readObject (values : ∀ field, Steady (readValue field)) :
    Steady (readObject context readValue) :=
  Steady.get fun _ => (steady_readFields values _ _).bind_pure _

theorem steady_readArray (values : ∀ field, Steady (readValue field)) :
    Steady (readArray context readValue) :=
  Steady.get fun _ => (steady_readFields values _ _).bind_pure _

theorem steady_readBehindSize (values : ∀ field, Steady (readValue field)) (field : Field)
    (size : Option Nat) : Steady (readBehindSize context readValue field size) := by
  unfold readBehindSize
  cases field.kind with
  | scalar kind =>
      refine (Scalar.steady_read size kind).bind fun scalar => ?_
      cases scalar.toJson context with
      | ok shown =>
          exact Steady.pure shown
      | error fault =>
          exact Steady.throw fault
  | object =>
      exact (steady_readObject values).nested
  | array =>
      exact (steady_readArray values).nested
  | unsupported =>
      exact Steady.throw _

theorem steady_readFieldValueWith (values : ∀ field, Steady (readValue field)) (field : Field) :
    Steady (readFieldValueWith context readValue field) := by
  rw [readFieldValueWith_eq]
  exact ((Length.steady_read.map some).ite (Steady.pure none)).bind
    (steady_readBehindSize values field)

/-- The values inside are read by readers of fewer levels. -/
theorem steady_innerReader (levels : Nat) (field : Field) :
    Steady (innerReader context levels field) := by
  induction levels generalizing field with
  | zero =>
      exact Steady.throw _
  | succ levels inductionHypothesis =>
      rw [innerReader, readFieldValueAt_eq]
      exact steady_readFieldValueWith inductionHypothesis field

theorem steady_readFieldValueAt (levels : Nat) (field : Field) :
    Steady (readFieldValueAt context levels field) := steady_innerReader (levels + 1) field

end Object

/-! ## Requests -/

/-- What a cursor is asked for. A nested read asks for several things one level deeper,
and after them it succeeds or fails. -/
inductive Request
  | isEnd
  | peek
  | octets (count : Nat)
  | number (width : Nat)
  | hash (width : Nat)
  | currency
  | scalar (size : Option Nat) (kind : ScalarKind)
  | length
  | frame
  | header
  | field
  | fieldValue (which : Field)
  | valueBehind (size : Option Nat) (which : Field)
  | object
  | items
  | nested (inside : List Request) (fault : Option Error)

/-- Moves the cursor and then succeeds or fails. -/
def Read.moving (move : Cursor → Cursor) (fault : Option Error) : Read Unit := fun cursor =>
  match fault with
  | none => .ok () (move cursor)
  | some fault => .error fault (move cursor)

private theorem Read.stop_moving (move : Cursor → Cursor) (fault : Option Error) (cursor : Cursor) :
    (Read.moving move fault).stop cursor = move cursor := by
  cases fault <;> rfl

namespace Request

variable (context : Context)

mutual

/-- The place where a request leaves the cursor, be it that it is met or fails. -/
def stop : Request → Cursor → Cursor
  | .isEnd => Read.isEnd.stop
  | .peek => Read.peek.stop
  | .octets count => (Read.octets count).stop
  | .number width => (Read.number width).stop
  | .hash width => (Read.hash width).stop
  | .currency => Currency.read.stop
  | .scalar size kind => (Scalar.read size kind).stop
  | .length => Length.read.stop
  | .frame => Length.readFrame.stop
  | .header => Header.read.stop
  | .field => (Header.readField context.registry).stop
  | .fieldValue which => (Object.readFieldValue context which).stop
  | .valueBehind size which => fun cursor =>
      (Object.readBehindSize context (Object.innerReader context cursor.levels) which size).stop
        cursor
  | .object => (Object.read context).stop
  | .items => (Object.readItems context).stop
  | .nested inside fault => (Read.nested (Read.moving (stopAll inside) fault)).stop

/-- The place behind requests one after another, of which some may have failed. -/
def stopAll : List Request → Cursor → Cursor
  | [], cursor => cursor
  | request :: others, cursor => stopAll others (stop request cursor)

end

variable {context : Context}

mutual

/-- A request only passes octets, whether it is met or fails. -/
theorem passes_stop : ∀ (request : Request) (before : Cursor),
    before.Passes (request.stop context before)
  | .isEnd => Steady.isEnd
  | .peek => Steady.peek
  | .octets count => Steady.octets count
  | .number width => Steady.number width
  | .hash width => Steady.hash width
  | .currency => Currency.steady_read
  | .scalar size kind => Scalar.steady_read size kind
  | .length => Length.steady_read
  | .frame => Length.steady_readFrame
  | .header => Header.steady_read
  | .field => Header.steady_readField context.registry
  | .fieldValue which => Steady.get fun _ => Object.steady_readFieldValueAt _ which
  | .valueBehind size which => fun before =>
      Object.steady_readBehindSize (Object.steady_innerReader _) which size before
  | .object => Steady.get fun _ => Object.steady_readObject (Object.steady_readFieldValueAt _)
  | .items => Steady.get fun _ => Object.steady_readArray (Object.steady_readFieldValueAt _)
  | .nested inside fault => Steady.nested fun before => by
      rw [stop_moving]
      exact passes_stopAll inside before

private theorem passes_stopAll : ∀ (requests : List Request) (before : Cursor),
    before.Passes (stopAll context requests before)
  | [], before => Cursor.Passes.refl before
  | request :: others, before =>
      (passes_stop request before).trans (passes_stopAll others (request.stop context before))

end

/-! ## Sequences of requests -/

/-- While requests are made one after another from a place on, whether or not they are
met, this request is made at this place, inside so many nested reads. -/
inductive Occurs (context : Context) (target : Request) (place : Cursor) :
    (depth : Nat) → List Request → Cursor → Prop
  | here {others : List Request} : Occurs context target place 0 (target :: others) place
  | later {depth : Nat} {first : Request} {others : List Request} {before : Cursor}
      (behind : Occurs context target place depth others (first.stop context before)) :
      Occurs context target place depth (first :: others) before
  | inside {depth levels : Nat} {inner others : List Request} {fault : Option Error}
      {before : Cursor} (room : before.levels = levels + 1)
      (deeper : Occurs context target place depth inner { before with levels }) :
      Occurs context target place (depth + 1) (.nested inner fault :: others) before

/-- Wherever a request is made, the cursor stands in the octets and not before the place
where the requests began, and each nested read around it has taken a level. -/
theorem Occurs.stands {target : Request} {place before : Cursor} {depth : Nat}
    {requests : List Request} {bytes : Bytes}
    (occurs : Occurs context target place depth requests before) (within : before.Within bytes) :
    place.Within bytes ∧ before.position ≤ place.position ∧
      place.levels + depth = before.levels := by
  induction occurs with
  | here =>
      exact ⟨within, Nat.le_refl _, rfl⟩
  | @later depth first others before _ inductionHypothesis =>
      have passes : before.Passes (first.stop context before) := passes_stop first before
      obtain ⟨stands, onward, levels⟩ := inductionHypothesis (passes.within within)
      exact ⟨stands, passes.position_le.trans onward, levels.trans passes.levels_eq⟩
  | inside room _ inductionHypothesis =>
      obtain ⟨stands, onward, levels⟩ :=
        inductionHypothesis ⟨within.position_le, within.rest_eq⟩
      refine ⟨stands, onward, ?_⟩
      rw [room, ← Nat.add_assoc, levels]

/-- Whatever is asked of a cursor over any octets, in any order, inside nested reads and
behind failures as well: no request leaves it behind the end of the octets or before
the place where the request was made, so that those that remain are the octets behind
its position; it leaves as many levels as there were, which are short of the greatest
number by the nested reads that are open; and octets that cannot all be taken leave
the cursor where it is. -/
theorem place_of_requests {target : Request} {place : Cursor} {depth : Nat}
    {requests : List Request} {bytes : Bytes}
    (occurs : Occurs context target place depth requests (Cursor.start bytes)) :
    (place.position ≤ (target.stop context place).position ∧
      (target.stop context place).position ≤ bytes.length) ∧
      place.remaining = bytes.length - place.position ∧
      (target.stop context place).remaining =
        bytes.length - (target.stop context place).position ∧
      (target.stop context place).rest = bytes.drop (target.stop context place).position ∧
      (target.stop context place).levels = place.levels ∧
      place.levels + depth = Cursor.maxDepth ∧
      ∀ count fault after, Read.octets count place = .error fault after → after = place := by
  obtain ⟨stands, _, levels⟩ := occurs.stands (Cursor.within_start bytes)
  have passes : place.Passes (target.stop context place) := passes_stop target place
  have within := passes.within stands
  exact ⟨⟨passes.position_le, within.position_le⟩, stands.remaining_eq, within.remaining_eq,
    within.rest_eq, passes.levels_eq, levels, fun _ _ _ => octets_eq_error⟩

/-- Octets that cannot be taken inside a nested read, behind a header and a length. -/
theorem place_of_requests_short :
    let bytes : Bytes := [0xEA, 0x01, 0x05, 0xFF]
    let requests : List Request :=
      [.header, .nested [.length, .octets 9, .isEnd] (some (.unexpectedEnd 9 2)), .peek]
    let place : Cursor := ⟨2, [0x05, 0xFF], 63⟩
    Occurs Context.standard (.octets 9) place 1 requests (Cursor.start bytes) ∧
      Read.octets 9 place = .error (.unexpectedEnd 9 2) place ∧
      place.remaining = bytes.length - place.position ∧ place.levels + 1 = Cursor.maxDepth := by
  intro bytes requests place
  have header : Request.header.stop Context.standard (Cursor.start bytes) =
      ⟨1, [0x01, 0x05, 0xFF], 64⟩ := by decide
  have length : Request.length.stop Context.standard ⟨1, [0x01, 0x05, 0xFF], 63⟩ = place := by
    decide
  have occurs : Occurs Context.standard (.octets 9) place 1 requests (Cursor.start bytes) := by
    refine .later ?_
    rw [header]
    refine .inside rfl (.later ?_)
    rw [length]
    exact .here
  obtain ⟨_, remaining, _, _, _, levels, _⟩ := place_of_requests occurs
  exact ⟨occurs, rfl, remaining, levels⟩

end Request

end LedgerWire
