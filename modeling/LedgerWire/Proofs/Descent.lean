import LedgerWire.Proofs.BoundedValues
import LedgerWire.Proofs.Rounds

/-!
# Decoding in rounds

The readers of objects and arrays call one another. The same fields are read by one
loop that holds the groups that are open: in a round it reads a header, and then it
reads a scalar, opens a group or ends one. What the loop ends with is what the
readers give, with the number of levels left that tells how many groups are open.
-/

namespace LedgerWire.Object

open Loop

/-! ## The loop -/

/-- A group that is open, with the entries that have been read in it. -/
structure Opened where
  group : Group
  entries : List (String × Json)

namespace Opened

def shown (opened : Opened) : Json := opened.group.collect opened.entries

def extend (opened : Opened) (entries : List (String × Json)) : Opened :=
  { opened with entries := opened.entries ++ entries }

end Opened

/-- The group whose fields are read. Around it are others, the nearest in front, each
with the name of the field that waits for its value. -/
structure Walk where
  inner : Opened
  outer : List (Opened × String)

namespace Walk

def start (group : Group) : Walk := ⟨⟨group, []⟩, []⟩

def extend (walk : Walk) (entries : List (String × Json)) : Walk :=
  { walk with inner := walk.inner.extend entries }

def descend (walk : Walk) (group : Group) (name : String) : Walk :=
  ⟨⟨group, []⟩, (walk.inner, name) :: walk.outer⟩

end Walk

/-- The group that the values of a kind are. -/
def group? : FieldKind → Option Group
  | .object => some .object
  | .array => some .array
  | _ => none

/-- Takes a level away, unless none is left. -/
def enter : Read Unit := fun cursor =>
  match cursor.levels with
  | 0 => .error (.nestingTooDeep Cursor.maxDepth) cursor
  | levels + 1 => .ok () { cursor with levels }

/-- Ends the inner group, whose level is given back if it is inside another. -/
def close : Walk → Read (Stage Walk Json)
  | ⟨inner, []⟩ => return .finished inner.shown
  | ⟨inner, (around, name) :: outer⟩ => fun cursor =>
      .ok (.running ⟨around.extend [(name, inner.shown)], outer⟩)
        { cursor with levels := cursor.levels + 1 }

variable (context : Context)

/-- Opens the group that is the value of a field, or reads the value. -/
def begin (walk : Walk) (field : Field) : Read (Stage Walk Json) :=
  match group? field.kind with
  | some group => do
      let _ ← readSize field
      enter
      return .running (walk.descend group field.name)
  | none => do
      let value ← readFieldValueAt context 0 field
      return .running (walk.extend [(field.name, value)])

/-- One more field of the inner group, or its end. -/
def go (walk : Walk) : Read (Stage Walk Json) := do
  if ← Read.isEnd then
    close walk
  else
    let field ← Header.readField context.registry
    if field.name = walk.inner.group.marker then
      close walk
    else
      begin context walk field

/-- After a failure the levels of so many groups are given back. -/
def restored {α : Type} (count : Nat) :
    EStateM.Result Error Cursor α → EStateM.Result Error Cursor α
  | .ok value cursor => .ok value cursor
  | .error fault cursor => .error fault { cursor with levels := cursor.levels + count }

/-- One round of the loop. -/
def round (walk : Walk) : Read (Stage Walk Json) := fun cursor =>
  restored walk.outer.length (go context walk cursor)

variable {context}

/-! ## What the readers give -/

private theorem onto_restored_bind_pure {α β : Type} (next : β → Cursor → Loop Walk Json)
    (count : Nat) (reader : Read α) (function : α → β) (cursor : Cursor) :
    onto next (restored count ((reader >>= fun value => pure (function value)) cursor)) =
      onto (fun value => next (function value)) (restored count (reader cursor)) := by
  cases reached : reader cursor with
  | ok value after =>
      rw [Read.bind_of_ok reached]
      rfl
  | error fault after =>
      rw [Read.bind_of_error reached]
      rfl

/-- A reader one level deeper gives its level back however it ends. -/
theorem onto_restored_nested {α : Type} (next : α → Cursor → Loop Walk Json) (count : Nat)
    (body : Read α) (position room : Nat) (rest : Bytes) :
    onto next (restored count (Read.nested body ⟨position, rest, room + 1⟩)) =
      onto (fun value after => next value { after with levels := after.levels + 1 })
        (restored (count + 1) (body ⟨position, rest, room⟩)) := by
  cases reached : body ⟨position, rest, room⟩ with
  | ok value after =>
      simp only [Read.nested, reached]
      rfl
  | error fault after =>
      simp only [Read.nested, reached, restored, Nat.add_assoc, Nat.add_comm count 1]
      rfl

/-- The kinds that are not groups are read alike under all levels. -/
theorem readFieldValueAt_eq_zero {field : Field} (single : group? field.kind = none)
    (room : Nat) : readFieldValueAt context room field = readFieldValueAt context 0 field := by
  cases kind : field.kind with
  | scalar _ =>
      rw [readFieldValueAt_eq, readFieldValueAt_eq, readFieldValueWith_scalar kind,
        readFieldValueWith_scalar kind]
  | object =>
      rw [kind] at single
      cases single
  | array =>
      rw [kind] at single
      cases single
  | unsupported =>
      rw [readFieldValueAt_eq, readFieldValueAt_eq]
      unfold readFieldValueWith
      rw [kind]

private theorem kind_of_group? {kind : FieldKind} {group : Group}
    (found : group? kind = some group) : kind = group.kind := by
  cases kind <;> cases found <;> rfl

private theorem begin_group (walk : Walk) {field : Field} {group : Group}
    (isGroup : group? field.kind = some group) :
    begin context walk field = readSize field >>= fun _ => enter >>= fun _ =>
      pure (.running (walk.descend group field.name)) := by
  simp only [begin, isGroup]

private theorem begin_single (walk : Walk) {field : Field} (single : group? field.kind = none) :
    begin context walk field = readFieldValueAt context 0 field >>= fun value =>
      pure (.running (walk.extend [(field.name, value)])) := by
  simp only [begin, single]

/-- The stage behind a value that the reader of values gives under so many levels. -/
abbrev behindValue (context : Context) (room : Nat) (walk : Walk) (field : Field)
    (cursor : Cursor) : Loop Walk Json :=
  onto (fun value after => .running (walk.extend [(field.name, value)], after))
    (restored walk.outer.length (readFieldValueAt context room field cursor))

/-- The stage behind the fields that the reader of fields gives under so many levels. -/
abbrev behindFields (context : Context) (room fuel : Nat) (walk : Walk) (cursor : Cursor) :
    Loop Walk Json :=
  onto (fun entries after => onto settle
      (close (walk.extend entries) after))
    (restored walk.outer.length
      (readFields context (readFieldValueAt context room) walk.inner.group.marker fuel cursor))

/-- The loop reads values as the reader does under so many levels. -/
def Follows (context : Context) (room : Nat) : Prop :=
  ∀ (walk : Walk) (field : Field) (cursor : Cursor), cursor.levels = room →
    Reaches (round context)
      (onto settle (restored walk.outer.length (begin context walk field cursor)))
      (behindValue context room walk field cursor)

section Simulation

variable {room fuel : Nat} {walk : Walk} {cursor : Cursor}

private theorem restored_zero {α : Type} (result : EStateM.Result Error Cursor α) :
    restored 0 result = result := by
  cases result <;> rfl

private theorem restored_close (walk : Walk) (count : Nat) (cursor : Cursor) :
    restored count (close walk cursor) = close walk cursor := by
  obtain ⟨inner, outer⟩ := walk
  cases outer <;> rfl

private theorem isEnd_of_nil (atEnd : cursor.rest = []) : Read.isEnd cursor = .ok true cursor := by
  obtain ⟨position, rest, levels⟩ := cursor
  cases atEnd
  rfl

private theorem isEnd_of_ne_nil (notEnd : cursor.rest ≠ []) :
    Read.isEnd cursor = .ok false cursor := by
  change EStateM.Result.ok cursor.rest.isEmpty cursor = _
  rw [List.isEmpty_eq_false_iff.mpr notEnd]

private theorem round_of_end (walk : Walk) (atEnd : cursor.rest = []) :
    round context walk cursor = close walk cursor := by
  rw [round, go, Read.bind_of_ok (isEnd_of_nil atEnd), if_pos rfl, restored_close]

private theorem round_of_ne_nil (walk : Walk) (notEnd : cursor.rest ≠ []) :
    round context walk cursor = restored walk.outer.length
      ((Header.readField context.registry >>= fun field =>
        if field.name = walk.inner.group.marker then close walk else begin context walk field)
          cursor) := by
  rw [round, go, Read.bind_of_ok (isEnd_of_ne_nil notEnd), if_neg (by decide)]

private theorem readFields_of_end (readValue : Field → Read Json) (marker : String)
    (atEnd : cursor.rest = []) :
    readFields context readValue marker fuel cursor = .ok [] cursor := by
  obtain ⟨position, rest, levels⟩ := cursor
  cases atEnd
  exact readFields_end readValue marker fuel position levels

private theorem readFields_of_ne_nil (readValue : Field → Read Json) (marker : String)
    (notEnd : cursor.rest ≠ []) :
    readFields context readValue marker (fuel + 1) cursor =
      (Header.readField context.registry >>= fun field =>
        if field.name = marker then pure []
        else
          readValue field >>= fun value =>
            readFields context readValue marker fuel >>= fun others =>
              pure ((field.name, value) :: others)) cursor := by
  rw [readFields_succ, Read.bind_of_ok (isEnd_of_ne_nil notEnd), if_neg (by decide)]
  simp only [map_eq_pure_bind]

private theorem extend_extend (walk : Walk) (first others : List (String × Json)) :
    (walk.extend first).extend others = walk.extend (first ++ others) := by
  simp [Walk.extend, Opened.extend]

private theorem extend_nil (walk : Walk) : walk.extend [] = walk := by
  simp [Walk.extend, Opened.extend]

/-- Fields in a row are read in rounds if each value is. -/
theorem reaches_readFields (values : Follows context room)
    (levels : cursor.levels = room) (enough : cursor.rest.length ≤ fuel) :
    Reaches (round context) (.running (walk, cursor))
      (behindFields context room fuel walk cursor) := by
  induction fuel generalizing walk cursor with
  | zero =>
      have atEnd : cursor.rest = [] := List.eq_nil_of_length_eq_zero (by omega)
      apply Reaches.step
      rw [round_of_end walk atEnd, behindFields, readFields_of_end _ _ atEnd, restored, onto,
        extend_nil]
      exact Reaches.refl _
  | succ fuel inductionHypothesis =>
      apply Reaches.step
      by_cases atEnd : cursor.rest = []
      · rw [round_of_end walk atEnd, behindFields, readFields_of_end _ _ atEnd, restored, onto,
          extend_nil]
        exact Reaches.refl _
      · rw [round_of_ne_nil walk atEnd, behindFields, readFields_of_ne_nil _ _ atEnd]
        cases headerRead : Header.readField context.registry cursor with
        | error fault after =>
            rw [Read.bind_of_error headerRead, Read.bind_of_error headerRead]
            exact Reaches.refl _
        | ok field after =>
            rw [Read.bind_of_ok headerRead, Read.bind_of_ok headerRead]
            obtain ⟨tookHeader, _, header⟩ := Header.readField_eq_ok headerRead
            by_cases isMark : field.name = walk.inner.group.marker
            · rw [if_pos isMark, if_pos isMark, restored_close, Read.pure_apply, restored, onto,
                extend_nil]
              exact Reaches.refl _
            · rw [if_neg isMark, if_neg isMark]
              have deep : after.levels = room := tookHeader.levels.trans levels
              refine (values walk field after deep).trans ?_
              cases valueRead : readFieldValueAt context room field after with
              | error fault last =>
                  rw [behindValue, valueRead, Read.bind_of_error valueRead]
                  exact Reaches.refl _
              | ok value last =>
                  obtain ⟨body, tookBody, _⟩ :=
                    draws_readFieldValueAt room field after value last deep valueRead
                  have fewer : last.rest.length ≤ fuel := by
                    have positive := List.length_pos_iff.mpr (Header.ne_nil_of_takes header)
                    rw [tookHeader.rest, tookBody.rest, List.length_append, List.length_append]
                      at enough
                    omega
                  have behind : Reaches (round context)
                      (.running (walk.extend [(field.name, value)], last)) _ :=
                    inductionHypothesis (tookBody.levels.trans deep) fewer
                  rw [behindValue, valueRead, Read.bind_of_ok valueRead, onto_restored_bind_pure]
                  simp only [behindFields, extend_extend, List.singleton_append] at behind
                  exact behind

/-- A value that is no group is read in one round. -/
theorem reaches_single {field : Field} (single : group? field.kind = none) :
    Reaches (round context)
      (onto settle (restored walk.outer.length (begin context walk field cursor)))
      (behindValue context room walk field cursor) := by
  rw [begin_single walk single, onto_restored_bind_pure, behindValue,
    readFieldValueAt_eq_zero single room]
  exact Reaches.refl _

/-- In front of a group its length is read either way. -/
theorem reaches_sized {group : Group} {field : Field} (isGroup : group? field.kind = some group)
    (inside : ∀ after : Cursor, after.levels = cursor.levels →
      Reaches (round context)
        (onto settle (restored walk.outer.length
          ((enter >>= fun _ => pure (.running (walk.descend group field.name))) after)))
        (onto (fun value last => .running (walk.extend [(field.name, value)], last))
          (restored walk.outer.length
            (Read.nested (readGroup context (innerReader context room) group) after)))) :
    Reaches (round context)
      (onto settle (restored walk.outer.length (begin context walk field cursor)))
      (behindValue context room walk field cursor) := by
  rw [behindValue, readFieldValueAt_eq, readFieldValueWith_group (kind_of_group? isGroup),
    begin_group walk isGroup]
  cases sizeRead : readSize field cursor with
  | error fault after =>
      rw [Read.bind_of_error sizeRead, Read.bind_of_error sizeRead]
      exact Reaches.refl _
  | ok size after =>
      obtain ⟨_, took, _⟩ := exact_readSize field _ _ _ sizeRead
      rw [Read.bind_of_ok sizeRead, Read.bind_of_ok sizeRead]
      exact inside after took.levels

/-- No group is opened where no level is left. -/
theorem reaches_refused {group : Group} {field : Field}
    (isGroup : group? field.kind = some group) (levels : cursor.levels = 0) :
    Reaches (round context)
      (onto settle (restored walk.outer.length (begin context walk field cursor)))
      (behindValue context 0 walk field cursor) := by
  apply reaches_sized isGroup
  rintro ⟨position, rest, depth⟩ same
  have none : depth = 0 := same.trans levels
  cases none
  exact Reaches.refl _

/-- A group is read in rounds if the fields inside are. -/
theorem reaches_group {group : Group} {field : Field}
    (isGroup : group? field.kind = some group) (values : Follows context room)
    (levels : cursor.levels = room + 1) :
    Reaches (round context)
      (onto settle (restored walk.outer.length (begin context walk field cursor)))
      (behindValue context (room + 1) walk field cursor) := by
  apply reaches_sized isGroup
  rintro ⟨position, rest, depth⟩ same
  have deeper : depth = room + 1 := same.trans levels
  cases deeper
  have entered : enter ⟨position, rest, room + 1⟩ = .ok () ⟨position, rest, room⟩ := rfl
  rw [Read.bind_of_ok entered, onto_restored_nested, innerReader, readGroup,
    Read.bind_of_ok (Read.get_apply _), onto_restored_bind_pure]
  exact reaches_readFields values rfl (Nat.le_refl rest.length)

private theorem follows (context : Context) (room : Nat) : Follows context room := by
  induction room with
  | zero =>
      intro walk field cursor levels
      cases isGroup : group? field.kind with
      | none =>
          exact reaches_single isGroup
      | some group =>
          exact reaches_refused isGroup levels
  | succ room inductionHypothesis =>
      intro walk field cursor levels
      cases isGroup : group? field.kind with
      | none =>
          exact reaches_single isGroup
      | some group =>
          exact reaches_group isGroup inductionHypothesis levels

/-- The loop ends, and what it ends with is what the reader of a group gives. -/
theorem reaches_end (context : Context) (group : Group) (cursor : Cursor) :
    Reaches (round context) (.running (Walk.start group, cursor))
      (.finished (readGroup context (readFieldValueAt context cursor.levels) group cursor)) := by
  have fields : Reaches (round context) (.running (Walk.start group, cursor)) _ :=
    reaches_readFields (follows context cursor.levels) rfl (Nat.le_refl cursor.remaining)
  have collected := onto_restored_bind_pure (fun value after => .finished (.ok value after)) 0
    (readFields context (readFieldValueAt context cursor.levels) group.marker cursor.remaining)
    group.collect cursor
  rw [restored_zero, onto_finished] at collected
  rw [readGroup, Read.bind_of_ok (Read.get_apply _), collected]
  exact fields

end Simulation

/-! ## What a round does -/

/-- A round that does not end the loop reads a value in the inner group, opens a group
inside it or ends it. -/
inductive Moves (walk : Walk) (before : Cursor) (next : Walk) (after : Cursor) : Prop
  | reads (fewer : after.remaining < before.remaining) (same : next.outer = walk.outer)
      (levels : after.levels = before.levels)
  | opens (fewer : after.remaining < before.remaining) {name : String}
      (deeper : next.outer = (walk.inner, name) :: walk.outer)
      (levels : before.levels = after.levels + 1)
  | closes (atMost : after.remaining ≤ before.remaining) {around : Opened} {name : String}
      (shallower : walk.outer = (around, name) :: next.outer)
      (levels : after.levels = before.levels + 1)

section Rounds

variable {walk next : Walk} {before middle after : Cursor}

private theorem close_eq_running (closed : close walk before = .ok (.running next) after)
 :
    ∃ around name, walk.outer = (around, name) :: next.outer ∧
      after = { before with levels := before.levels + 1 } := by
  obtain ⟨inner, outer⟩ := walk
  cases outer with
  | nil =>
      cases closed
  | cons first outer =>
      cases closed
      exact ⟨_, _, rfl, rfl⟩

theorem enter_eq_ok (entered : enter before = .ok () after) :
    before.levels = after.levels + 1 ∧ after.remaining = before.remaining := by
  obtain ⟨position, rest, levels⟩ := before
  cases levels with
  | zero =>
      cases entered
  | succ levels =>
      cases entered
      exact ⟨rfl, rfl⟩

theorem restored_eq_ok {α : Type} {count : Nat} {result : EStateM.Result Error Cursor α} {value : α}
    (succeeded : restored count result = .ok value after) : result = .ok value after := by
  cases result <;> cases succeeded
  rfl

private theorem moves_of_begin {header : Bytes} {field : Field} (took : Took before header middle)
    (headed : header ≠ []) (begun : begin context walk field middle = .ok (.running next) after) :
    Moves walk before next after := by
  have positive := List.length_pos_iff.mpr headed
  have headerLess := took.remaining_eq
  cases isGroup : group? field.kind with
  | none =>
      rw [begin_single walk isGroup, ← readFieldValueAt_eq_zero isGroup middle.levels] at begun
      obtain ⟨value, last, valueRead, ended⟩ := Read.bind_eq_ok.mp begun
      obtain ⟨same, rfl⟩ := Read.pure_eq_ok.mp ended
      cases same
      obtain ⟨_, tookBody, _⟩ := draws_readFieldValueAt _ _ _ _ _ rfl valueRead
      have bodyLess := tookBody.remaining_eq
      exact .reads (by omega) rfl (tookBody.levels.trans took.levels)
  | some group =>
      rw [begin_group walk isGroup] at begun
      obtain ⟨size, second, sizeRead, rest⟩ := Read.bind_eq_ok.mp begun
      obtain ⟨_, third, entered, ended⟩ := Read.bind_eq_ok.mp rest
      obtain ⟨same, rfl⟩ := Read.pure_eq_ok.mp ended
      cases same
      obtain ⟨_, tookSize, _⟩ := exact_readSize field _ _ _ sizeRead
      have sizeLess := tookSize.remaining_eq
      obtain ⟨levels, remaining⟩ := enter_eq_ok entered
      refine .opens (by omega) rfl ?_
      rw [← levels, tookSize.levels, took.levels]

private theorem moves_of_round (taken : round context walk before = .ok (.running next) after) :
    Moves walk before next after := by
  by_cases atEnd : before.rest = []
  · rw [round_of_end walk atEnd] at taken
    obtain ⟨around, name, shallower, rfl⟩ := close_eq_running taken
    exact .closes (Nat.le_refl _) shallower rfl
  · rw [round_of_ne_nil walk atEnd] at taken
    obtain ⟨field, middle, headerRead, rest⟩ := Read.bind_eq_ok.mp (restored_eq_ok taken)
    obtain ⟨took, _, header⟩ := Header.readField_eq_ok headerRead
    split at rest
    · obtain ⟨around, name, shallower, rfl⟩ := close_eq_running rest
      have headerLess := took.remaining_eq
      refine .closes ?_ shallower ?_
      · change middle.remaining ≤ before.remaining
        omega
      · rw [← took.levels]
    · exact moves_of_begin took (Header.ne_nil_of_takes header) rest

/-- The octets that are left, twice, and the groups that are open. -/
def weight (place : Walk × Cursor) : Nat := 2 * place.2.remaining + place.1.outer.length

theorem lightens_round (context : Context) : Lightens (round context) weight := by
  rintro ⟨walk, before⟩ ⟨next, after⟩ taken
  have moves : Moves walk before next after := moves_of_round (advance_eq_running taken)
  change 2 * after.remaining + next.outer.length < 2 * before.remaining + walk.outer.length
  cases moves with
  | reads fewer same =>
      rw [same]
      omega
  | opens fewer deeper =>
      rw [deeper, List.length_cons]
      omega
  | closes atMost shallower =>
      rw [shallower, List.length_cons]
      omega

/-- The loop over the octets of an object ends in time. -/
theorem finishes_read (context : Context) (bytes : Bytes) :
    (advance (round context))^[2 * bytes.length + 1]
        (.running (Walk.start .object, Cursor.start bytes)) =
      .finished (read context (Cursor.start bytes)) :=
  finished_of_reaches (lightens_round context) (reaches_end context .object (Cursor.start bytes))

/-- With each group that is open there is a level less. -/
theorem levels_of_visits {start : Cursor} {group : Group} {place : Walk × Cursor}
    (visits : Visits (round context) (Walk.start group, start) place) :
    place.2.levels + place.1.outer.length = start.levels := by
  have preserved : ∀ before after : Walk × Cursor,
      before.2.levels + before.1.outer.length = start.levels →
        advance (round context) (.running before) = .running after →
          after.2.levels + after.1.outer.length = start.levels := by
    rintro ⟨walk, before⟩ ⟨next, after⟩ balanced taken
    have moves : Moves walk before next after := moves_of_round (advance_eq_running taken)
    change before.levels + walk.outer.length = start.levels at balanced
    change after.levels + next.outer.length = start.levels
    cases moves with
    | reads _ same levels =>
        rw [same, levels, balanced]
    | opens _ deeper levels =>
        rw [deeper, List.length_cons]
        omega
    | closes _ shallower levels =>
        rw [shallower, List.length_cons] at balanced
        omega
  exact holds_of_visits preserved (Nat.add_zero start.levels) visits

private theorem group?_kind (group : Group) : group? group.kind = some group := by
  cases group <;> rfl

/-- Where no level is left the next group ends the loop. -/
theorem round_refused {field : Field} {group : Group} {size : Option Nat}
    (headerRead : Header.readField context.registry before = .ok field middle)
    (unmarked : field.name ≠ walk.inner.group.marker) (isGroup : field.kind = group.kind)
    (sizeRead : readSize field middle = .ok size after) (levels : before.levels = 0) :
    ∃ last, round context walk before = .error (.nestingTooDeep Cursor.maxDepth) last := by
  obtain ⟨took, _, header⟩ := Header.readField_eq_ok headerRead
  obtain ⟨_, tookSize, _⟩ := exact_readSize field _ _ _ sizeRead
  have notEnd : before.rest ≠ [] := by
    rw [took.rest]
    exact List.append_ne_nil_of_left_ne_nil (Header.ne_nil_of_takes header) _
  obtain ⟨position, rest, depth⟩ := after
  have none : depth = 0 := tookSize.levels.trans (took.levels.trans levels)
  cases none
  rw [round_of_ne_nil walk notEnd, Read.bind_of_ok headerRead, if_neg unmarked,
    begin_group walk (isGroup ▸ group?_kind group), Read.bind_of_ok sizeRead]
  exact ⟨_, rfl⟩

/-- Where as many groups are open as are followed, the next one makes decoding fail. -/
theorem decode_refused {bytes : Bytes} {field : Field} {group : Group} {size : Option Nat}
    (visits : Visits (round context) (Walk.start .object, Cursor.start bytes) (walk, before))
    (deepest : walk.outer.length = Cursor.maxDepth)
    (headerRead : Header.readField context.registry before = .ok field middle)
    (unmarked : field.name ≠ walk.inner.group.marker) (isGroup : field.kind = group.kind)
    (sizeRead : readSize field middle = .ok size after) :
    decode context bytes = .error (.nestingTooDeep Cursor.maxDepth) := by
  have balanced : before.levels + walk.outer.length = Cursor.maxDepth := levels_of_visits visits
  have levels : before.levels = 0 := by omega
  obtain ⟨last, refused⟩ := round_refused headerRead unmarked isGroup sizeRead levels
  have ends : Reaches (round context) (.running (walk, before))
      (.finished (.error (.nestingTooDeep Cursor.maxDepth) last)) := by
    apply Reaches.step
    rw [refused]
    exact Reaches.refl _
  have whole : read context (Cursor.start bytes) = .error (.nestingTooDeep Cursor.maxDepth) last :=
    (reaches_end context .object (Cursor.start bytes)).unique (visits.trans ends)
  rw [decode, Read.ofBytes, whole]

end Rounds

/-! ## Any octets -/

/-- What comes of decoding some octets, whatever they are. -/
structure Bounded (context : Context) (bytes : Bytes) : Prop where
  /-- The loop ends, and it ends as the readers do. -/
  ends : ∃ rounds ≤ 2 * bytes.length + 1,
    (advance (round context))^[rounds] (.running (Walk.start .object, Cursor.start bytes)) =
      .finished (read context (Cursor.start bytes))
  /-- A round takes an octet, or it ends a group. -/
  progresses : ∀ {walk next : Walk} {before after : Cursor},
    round context walk before = .ok (.running next) after → Moves walk before next after
  shallow : ∀ {walk : Walk} {cursor : Cursor},
    Visits (round context) (Walk.start .object, Cursor.start bytes) (walk, cursor) →
      walk.outer.length ≤ 64
  refuses : ∀ {walk : Walk} {before middle after : Cursor} {field : Field} {group : Group}
      {size : Option Nat},
    Visits (round context) (Walk.start .object, Cursor.start bytes) (walk, before) →
    walk.outer.length = 64 →
    Header.readField context.registry before = .ok field middle →
    field.name ≠ walk.inner.group.marker →
    field.kind = group.kind →
    readSize field middle = .ok size after →
    decode context bytes = .error (.nestingTooDeep 64)
  holds : ∀ {shown : Json}, decode context bytes = .ok shown →
    ∃ entries, shown = .object entries ∧
      Gauge.depth.ofEntries context.registry entries ≤ 64 ∧
      Gauge.count.ofEntries context.registry entries ≤ bytes.length

/-- Over a registry that could be loaded decoding is bounded by its octets and by the
levels it follows, and so is the loop over the octets of a set of paths. -/
theorem decode_bounded {text : String} {registry : Registry}
    (loaded : Registry.Loads text registry) (addresses : CheckedText) (bytes : Bytes) :
    Bounded ⟨registry, addresses⟩ bytes ∧
      ∀ cursor : Cursor,
        (∃ rounds ≤ cursor.remaining + 1,
          (advance PathSet.round)^[rounds] (.running (⟨[], []⟩, cursor)) =
            .finished (PathSet.read cursor)) ∧
        ∀ (walk next : PathSet.Walk) (after : Cursor),
          PathSet.round walk cursor = .ok (.running next) after →
            after.remaining < cursor.remaining := by
  refine ⟨⟨?_, moves_of_round, ?_, decode_refused, ?_⟩, fun cursor => ⟨?_, ?_⟩⟩
  · exact ⟨_, Nat.le_refl _, finishes_read _ bytes⟩
  · intro walk cursor visits
    have balanced : cursor.levels + walk.outer.length = 64 := levels_of_visits visits
    omega
  · exact bounds_of_decode (Registry.distinct_of_loads loaded)
  · exact ⟨_, Nat.le_refl _, PathSet.finishes_read cursor⟩
  · exact fun walk next after => PathSet.round_takes

/-- Definitions of a single field, which holds other fields. -/
def memoField : String :=
  "[\x7b\"STObject\":14\x7d,\x7b\x7d,[[\"Memo\",[10,false,true,true,\"STObject\"]]]," ++
    "\x7b\x7d,\x7b\x7d]"

/-- As many memos are decoded in one another as are followed, and one more is refused. -/
theorem decode_bounded_memos :
    ∃ registry, Registry.ofText memoField = .ok registry ∧
      Bounded ⟨registry, CheckedText.base58⟩ (List.replicate 64 0xEA) ∧
      (∃ shown, decode ⟨registry, CheckedText.base58⟩ (List.replicate 64 0xEA) = .ok shown ∧
        Gauge.depth.ofValue registry .object shown = 64 + 1) ∧
      ¬ ∃ shown, decode ⟨registry, CheckedText.base58⟩ (List.replicate 65 0xEA) = .ok shown := by
  have evaluated : ((Registry.ofText memoField).toOption.any fun registry =>
      ((decode ⟨registry, CheckedText.base58⟩ (List.replicate 64 0xEA)).toOption.any fun shown =>
        Gauge.depth.ofValue registry .object shown == 64 + 1) &&
      (decode ⟨registry, CheckedText.base58⟩ (List.replicate 65 0xEA)).toOption.isNone) = true := by
    decide +kernel
  obtain ⟨registry, found, same⟩ := (Option.any_eq_true _ _).mp evaluated
  obtain ⟨decoded, refused⟩ := Bool.and_eq_true_iff.mp same
  obtain ⟨shown, deepest, depth⟩ := (Option.any_eq_true _ _).mp decoded
  have loaded := Outcome.eq_ok_of_toOption found
  obtain ⟨bounded, _⟩ := decode_bounded (Registry.loads_of_ofText loaded) CheckedText.base58
    (List.replicate 64 0xEA)
  refine ⟨registry, loaded, bounded, ⟨shown, Outcome.eq_ok_of_toOption deepest,
    beq_iff_eq.mp depth⟩, ?_⟩
  rintro ⟨other, deeper⟩
  rw [deeper] at refused
  cases refused

end LedgerWire.Object
