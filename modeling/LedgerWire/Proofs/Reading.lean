import LedgerWire.Cursor

/-!
# What a reader takes

A reader is judged by the octets in front of it: it takes some of them for a
value, whatever follows. A reader of nested values also opens objects and
arrays, and the number of levels it needs decides whether it succeeds or stops
at the limit. In turn the value that a reader of octets has succeeded with tells
the octets that it took.
-/

namespace LedgerWire

/-! ## Readers without nesting -/

variable {α β : Type}

/-- The reader takes exactly these octets, in front of any others, for the value. -/
def Takes (reader : Read α) (bytes : Bytes) (value : α) : Prop :=
  ∀ position rest levels,
    reader ⟨position, bytes ++ rest, levels⟩ =
      .ok value ⟨position + bytes.length, rest, levels⟩

namespace Read

theorem bind_of_ok {first : Read α} {next : α → Read β} {before after : Cursor} {value : α}
    (succeeded : first before = .ok value after) :
    (first >>= next) before = next value after := by
  change EStateM.bind first next before = _
  simp only [EStateM.bind, succeeded]

theorem bind_of_error {first : Read α} {next : α → Read β} {before after : Cursor}
    {fault : Error} (failed : first before = .error fault after) :
    (first >>= next) before = .error fault after := by
  change EStateM.bind first next before = _
  simp only [EStateM.bind, failed]

@[simp]
theorem pure_apply (value : α) (cursor : Cursor) :
    (pure value : Read α) cursor = .ok value cursor := rfl

@[simp]
theorem throw_apply (fault : Error) (cursor : Cursor) :
    (throw fault : Read α) cursor = .error fault cursor := rfl

@[simp]
theorem get_apply (cursor : Cursor) :
    (get : Read Cursor) cursor = .ok cursor cursor := rfl

theorem bind_eq_ok {first : Read α} {next : α → Read β} {before after : Cursor} {result : β} :
    (first >>= next) before = .ok result after ↔
      ∃ value middle, first before = .ok value middle ∧ next value middle = .ok result after := by
  constructor
  · intro succeeded
    cases reached : first before with
    | ok value middle =>
        rw [bind_of_ok reached] at succeeded
        exact ⟨value, middle, rfl, succeeded⟩
    | error fault middle =>
        rw [bind_of_error reached] at succeeded
        cases succeeded
  · rintro ⟨value, middle, reached, succeeded⟩
    rw [bind_of_ok reached, succeeded]

theorem pure_eq_ok {before after : Cursor} {value result : α} :
    (pure value : Read α) before = .ok result after ↔ value = result ∧ before = after := by
  rw [pure_apply, EStateM.Result.ok.injEq]

end Read

namespace Takes

theorem pure (value : α) : Takes (pure value) [] value := by
  intro position rest levels
  simp

theorem bind {first : Read α} {next : α → Read β} {left right : Bytes} {value : α} {result : β}
    (head : Takes first left value) (tail : Takes (next value) right result) :
    Takes (first >>= next) (left ++ right) result := by
  intro position rest levels
  rw [List.append_assoc, Read.bind_of_ok (head position (right ++ rest) levels), tail]
  simp [Nat.add_assoc]

/-- A value that the rest of a reader computes without reading. -/
theorem bind_pure {first : Read α} {next : α → Read β} {bytes : Bytes} {value : α} {result : β}
    (head : Takes first bytes value) (last : next value = Pure.pure result) :
    Takes (first >>= next) bytes result := by
  have both : Takes (first >>= next) (bytes ++ []) result :=
    head.bind (last ▸ Takes.pure result)
  simpa using both

theorem map {reader : Read α} {bytes : Bytes} {value : α} (function : α → β)
    (taken : Takes reader bytes value) :
    Takes (function <$> reader) bytes (function value) := by
  rw [map_eq_pure_bind]
  exact taken.bind_pure rfl

theorem octets (bytes : Bytes) : Takes (Read.octets bytes.length) bytes bytes := by
  intro position rest levels
  simp [Read.octets]

theorem octets_of_length {bytes : Bytes} {count : Nat} (exact : bytes.length = count) :
    Takes (Read.octets count) bytes bytes := by
  rw [← exact]
  exact Takes.octets bytes

theorem number {width value : Nat} (bound : value < 256 ^ width) :
    Takes (Read.number width) (Bytes.ofNat width value) value := by
  have taken : Takes (Read.octets width) (Bytes.ofNat width value) (Bytes.ofNat width value) :=
    Takes.octets_of_length (Bytes.length_ofNat width value)
  apply taken.bind_pure
  rw [Bytes.toNat_ofNat_of_lt bound]

theorem byte (value : UInt8) : Takes Read.byte [value] value.toNat := by
  have taken : Takes (Read.octets 1) [value] [value] := Takes.octets_of_length rfl
  apply taken.bind_pure
  simp [Bytes.toNat]

theorem hash {width : Nat} (hash : Hash width) : Takes (Read.hash width) hash.bytes hash := by
  have taken : Takes (Read.octets width) hash.bytes hash.bytes :=
    Takes.octets_of_length hash.length_bytes
  apply taken.bind_pure
  simp [Hash.ofBytes]

end Takes

/-! ## Readers of nested values -/

/-- With room for this many levels of objects and arrays the reader takes
exactly these octets and goes on as another, if it opens no more levels, and
else it stops at the limit. -/
structure Runs (room : Nat) (reader : Read α) (bytes : Bytes) (next : Read α)
    (levels : Nat) : Prop where
  accepts : levels ≤ room → ∀ position rest,
    reader ⟨position, bytes ++ rest, room⟩ = next ⟨position + bytes.length, rest, room⟩
  refuses : room < levels → ∀ position rest, ∃ after,
    reader ⟨position, bytes ++ rest, room⟩ = .error (.nestingTooDeep Cursor.maxDepth) after

/-- The reader takes the octets for the value. -/
abbrev Reads (room : Nat) (reader : Read α) (bytes : Bytes) (value : α) (levels : Nat) : Prop :=
  Runs room reader bytes (pure value) levels

theorem Takes.reads {room : Nat} {reader : Read α} {bytes : Bytes} {value : α}
    (taken : Takes reader bytes value) : Reads room reader bytes value 0 where
  accepts _ position rest := taken position rest room
  refuses impossible := absurd impossible (Nat.not_lt_zero room)

namespace Runs

variable {room : Nat}

theorem refl (room : Nat) (reader : Read α) : Runs room reader [] reader 0 where
  accepts _ _ _ := rfl
  refuses impossible := absurd impossible (Nat.not_lt_zero room)

theorem trans {reader next last : Read α} {left right : Bytes} {needed others : Nat}
    (first : Runs room reader left next needed) (second : Runs room next right last others) :
    Runs room reader (left ++ right) last (max needed others) where
  accepts fits position rest := by
    rw [List.append_assoc, first.accepts (by omega), second.accepts (by omega)]
    simp [Nat.add_assoc]
  refuses exceeds position rest := by
    rw [List.append_assoc]
    by_cases headFits : needed ≤ room
    · rw [first.accepts headFits]
      exact second.refuses (by omega) (position + left.length) rest
    · exact first.refuses (by omega) position (right ++ rest)

/-- What a reader goes on with may depend on its value. -/
theorem bind {first : Read α} {next : α → Read β} {last : Read β} {left right : Bytes} {value : α}
    {needed others : Nat} (head : Reads room first left value needed)
    (tail : Runs room (next value) right last others) :
    Runs room (first >>= next) (left ++ right) last (max needed others) where
  accepts fits position rest := by
    rw [List.append_assoc, Read.bind_of_ok (head.accepts (by omega) position (right ++ rest)),
      tail.accepts (by omega)]
    simp [Nat.add_assoc]
  refuses exceeds position rest := by
    rw [List.append_assoc]
    by_cases headFits : needed ≤ room
    · rw [Read.bind_of_ok (head.accepts headFits position (right ++ rest))]
      exact tail.refuses (by omega) (position + left.length) rest
    · obtain ⟨after, failed⟩ := head.refuses (by omega) position (right ++ rest)
      exact ⟨after, Read.bind_of_error failed⟩

/-- What is taken without nesting does not change the levels. -/
theorem behind {first : Read α} {next : α → Read β} {last : Read β} {left right : Bytes}
    {value : α} {levels : Nat} (head : Takes first left value)
    (tail : Runs room (next value) right last levels) :
    Runs room (first >>= next) (left ++ right) last levels := by
  have both := bind head.reads tail
  rwa [Nat.zero_max] at both

/-- A reader that has its value goes on as the next one. -/
theorem goOn {reader : Read α} {bytes : Bytes} {value : α} {levels : Nat}
    (head : Reads room reader bytes value levels) (next : α → Read β) :
    Runs room (reader >>= next) bytes (next value) levels where
  accepts fits position rest := by
    rw [Read.bind_of_ok (head.accepts fits position rest)]
  refuses exceeds position rest := by
    obtain ⟨after, failed⟩ := head.refuses exceeds position rest
    exact ⟨after, Read.bind_of_error failed⟩

theorem map {reader next : Read α} {bytes : Bytes} {levels : Nat} (function : α → β)
    (runs : Runs room reader bytes next levels) :
    Runs room (function <$> reader) bytes (function <$> next) levels where
  accepts fits position rest := by
    change EStateM.map function reader _ = EStateM.map function next _
    simp only [EStateM.map, runs.accepts fits]
  refuses exceeds position rest := by
    obtain ⟨after, failed⟩ := runs.refuses exceeds position rest
    refine ⟨after, ?_⟩
    change EStateM.map function reader _ = _
    simp only [EStateM.map, failed]

/-- In front of an octet the end has not been reached. -/
theorem not_isEnd {reached goesOn last : Read α} {bytes : Bytes} {levels : Nat}
    (nonempty : bytes ≠ []) (runs : Runs room goesOn bytes last levels) :
    Runs room (Read.isEnd >>= fun isEnd => if isEnd then reached else goesOn) bytes last
      levels := by
  have seen : ∀ position rest, Read.isEnd ⟨position, bytes ++ rest, room⟩ =
      .ok false ⟨position, bytes ++ rest, room⟩ := by
    intro position rest
    simp [Read.isEnd, Cursor.isEnd, nonempty, Read.bind_of_ok (Read.get_apply _)]
  constructor
  · intro fits position rest
    rw [Read.bind_of_ok (seen position rest)]
    exact runs.accepts fits position rest
  · intro exceeds position rest
    rw [Read.bind_of_ok (seen position rest)]
    exact runs.refuses exceeds position rest

theorem remaining {reader : Nat → Read α} {bytes : Bytes} {last : Read α} {levels : Nat}
    (runs : ∀ left, bytes.length ≤ left → Runs room (reader left) bytes last levels) :
    Runs room (get >>= fun cursor => reader cursor.remaining) bytes last levels := by
  have enough : ∀ position rest, bytes.length ≤
      Cursor.remaining ⟨position, bytes ++ rest, room⟩ := by
    intro position rest
    simp [Cursor.remaining]
  constructor
  · intro fits position rest
    rw [Read.bind_of_ok (Read.get_apply _)]
    exact (runs _ (enough position rest)).accepts fits position rest
  · intro exceeds position rest
    rw [Read.bind_of_ok (Read.get_apply _)]
    exact (runs _ (enough position rest)).refuses exceeds position rest

theorem nested {body : Read α} {bytes : Bytes} {value : α} {levels : Nat}
    (inside : ∀ inner, room = inner + 1 → Reads inner body bytes value levels) :
    Reads room (Read.nested body) bytes value (levels + 1) where
  accepts fits position rest := by
    obtain ⟨inner, rfl⟩ : ∃ inner, room = inner + 1 := ⟨room - 1, by omega⟩
    simp only [Read.nested, (inside inner rfl).accepts (by omega), Read.pure_apply]
  refuses exceeds position rest := by
    cases room with
    | zero =>
        exact ⟨_, rfl⟩
    | succ inner =>
        obtain ⟨after, failed⟩ := (inside inner rfl).refuses (by omega) position rest
        exact ⟨_, by simp only [Read.nested, failed]; rfl⟩

end Runs

/-! ## Readers that have succeeded -/

/-- The octets between two places at the same depth. -/
structure Took (before : Cursor) (bytes : Bytes) (after : Cursor) : Prop where
  rest : before.rest = bytes ++ after.rest
  levels : after.levels = before.levels

namespace Took

variable {before middle after : Cursor} {left right : Bytes}

theorem refl (cursor : Cursor) : Took cursor [] cursor := ⟨rfl, rfl⟩

theorem trans (first : Took before left middle) (second : Took middle right after) :
    Took before (left ++ right) after where
  rest := by rw [first.rest, second.rest, List.append_assoc]
  levels := second.levels.trans first.levels

end Took

namespace Read

variable {before after : Cursor}

theorem peek_eq_ok {first : UInt8} (succeeded : peek before = .ok first after) :
    ∃ tail, before.rest = first :: tail ∧ after = before := by
  unfold peek at succeeded
  split at succeeded
  · cases succeeded
  · rename_i byte tail inFront
    cases succeeded
    exact ⟨tail, inFront, rfl⟩

theorem octets_of_le {count : Nat} (enough : count ≤ before.rest.length) :
    octets count before = .ok (before.rest.take count)
      ⟨before.position + count, before.rest.drop count, before.levels⟩ := by
  have taken : ¬ (before.rest.take count).length < count := by
    rw [List.length_take_of_le enough]
    exact Nat.lt_irrefl count
  rw [octets, if_neg taken]

theorem octets_eq_ok {count : Nat} {bytes : Bytes}
    (succeeded : octets count before = .ok bytes after) :
    Took before bytes after ∧ bytes.length = count := by
  unfold octets at succeeded
  dsimp only at succeeded
  split at succeeded
  · cases succeeded
  · rename_i enough
    cases succeeded
    refine ⟨⟨(List.take_append_drop count before.rest).symm, rfl⟩, ?_⟩
    have atMost := List.length_take_le count before.rest
    omega

theorem number_eq_ok {width value : Nat} (succeeded : number width before = .ok value after) :
    Took before (Bytes.ofNat width value) after ∧ value < 256 ^ width := by
  obtain ⟨bytes, middle, taken, last⟩ := bind_eq_ok.mp succeeded
  obtain ⟨rfl, rfl⟩ := pure_eq_ok.mp last
  obtain ⟨took, rfl⟩ := octets_eq_ok taken
  rw [Bytes.ofNat_toNat]
  exact ⟨took, Bytes.toNat_lt bytes⟩

theorem byte_eq_ok {value : Nat} (succeeded : byte before = .ok value after) :
    Took before [UInt8.ofNat value] after ∧ value < 256 :=
  number_eq_ok succeeded

theorem hash_eq_ok {width : Nat} {value : Hash width}
    (succeeded : hash width before = .ok value after) : Took before value.bytes after := by
  obtain ⟨bytes, middle, taken, last⟩ := bind_eq_ok.mp succeeded
  obtain ⟨took, rfl⟩ := octets_eq_ok taken
  simp only [Hash.ofBytes, Hash.ofBytes?, dif_pos] at last
  obtain ⟨rfl, rfl⟩ := pure_eq_ok.mp last
  exact took

end Read

end LedgerWire
