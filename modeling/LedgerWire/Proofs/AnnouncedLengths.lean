import LedgerWire.Proofs.LengthPrefixes
import LedgerWire.Proofs.ReadingBack

/-!
# Announced lengths

The length in front of a value is to tell where the next field begins. Whether it does is
left to the kind of the value: hashes, accounts, blobs and rows of hashes take as many
octets as were announced or are refused, and every other kind is read as if no length stood
there.
-/

namespace LedgerWire

variable {α β : Type} {before after : Cursor}

/-! ## Where a reader stops -/

/-- Wherever the reader succeeds, it stops behind so many octets. -/
def StopsBehind (count : Nat) (reader : Read α) : Prop :=
  ∀ before value after, reader before = .ok value after →
    count ≤ before.rest.length ∧
      after = ⟨before.position + count, before.rest.drop count, before.levels⟩

namespace StopsBehind

theorem pure (value : α) : StopsBehind 0 (pure value) := by
  intro before result after succeeded
  obtain ⟨_, rfl⟩ := Read.pure_eq_ok.mp succeeded
  exact ⟨Nat.zero_le _, rfl⟩

theorem bind {first : Read α} {next : α → Read β} {count others : Nat}
    (head : StopsBehind count first) (tail : ∀ value, StopsBehind others (next value)) :
    StopsBehind (count + others) (first >>= next) := by
  intro before result after succeeded
  obtain ⟨value, middle, firstDone, nextDone⟩ := Read.bind_eq_ok.mp succeeded
  obtain ⟨enough, rfl⟩ := head _ _ _ firstDone
  obtain ⟨enoughBehind, rfl⟩ := tail value _ _ _ nextDone
  dsimp only at enoughBehind ⊢
  rw [List.length_drop] at enoughBehind
  rw [List.drop_drop, Nat.add_assoc]
  exact ⟨by omega, rfl⟩

theorem bind_pure {first : Read α} {count : Nat} (head : StopsBehind count first) (last : α → β) :
    StopsBehind count (first >>= fun value => Pure.pure (last value)) :=
  head.bind fun value => StopsBehind.pure (last value)

theorem octets (count : Nat) : StopsBehind count (Read.octets count) := by
  intro before bytes after succeeded
  obtain ⟨took, size⟩ := Read.octets_eq_ok succeeded
  have enough : count ≤ before.rest.length := by
    rw [took.rest, List.length_append, size]
    exact Nat.le_add_right _ _
  rw [Read.octets_of_le enough] at succeeded
  exact ⟨enough, (EStateM.Result.ok.inj succeeded).2.symm⟩

theorem throw (count : Nat) (fault : Error) : StopsBehind count (throw fault : Read α) := by
  intro before value after succeeded
  cases succeeded

theorem hash (width : Nat) : StopsBehind width (Read.hash width) := by
  refine (octets width).bind fun bytes => (?_ : StopsBehind 0 _)
  cases Hash.ofBytes width bytes with
  | ok hash =>
      exact StopsBehind.pure hash
  | error fault =>
      exact StopsBehind.throw 0 fault

end StopsBehind

/-! ## Scalars -/

/-- Whether the values of a kind take as many octets as are announced for them. -/
def ScalarKind.counted : ScalarKind → Bool
  | .hash128 => true
  | .hash160 => true
  | .hash256 => true
  | .account => true
  | .blob => true
  | .vector256 => true
  | _ => false

/-- Of the kinds that hold other fields none is counted. -/
def FieldKind.counted : FieldKind → Bool
  | .scalar kind => kind.counted
  | _ => false

namespace Scalar

private theorem stopsBehind_readHash (width size : Nat) :
    StopsBehind size (readHash width (some size)) := by
  cases size with
  | zero =>
      exact StopsBehind.pure (Hash.zero width)
  | succ size =>
      by_cases same : size + 1 = width
      · simp only [readHash, if_pos same]
        rw [same]
        exact StopsBehind.hash width
      · simp only [readHash, if_neg same]
        exact StopsBehind.throw _ _

private theorem stopsBehind_readHashes (width count : Nat) :
    StopsBehind (count * width) (readHashes width count) := by
  induction count with
  | zero =>
      rw [Nat.zero_mul]
      exact StopsBehind.pure []
  | succ count inductionHypothesis =>
      rw [Nat.succ_mul, Nat.add_comm]
      exact (StopsBehind.hash width).bind fun hash => inductionHypothesis.bind_pure _

private theorem stopsBehind_read {kind : ScalarKind} (counted : kind.counted = true) (size : Nat) :
    StopsBehind size (read (some size) kind) := by
  cases kind with
  | hash128 =>
      exact (stopsBehind_readHash 16 size).bind_pure _
  | hash160 =>
      exact (stopsBehind_readHash 20 size).bind_pure _
  | hash256 =>
      exact (stopsBehind_readHash 32 size).bind_pure _
  | account =>
      exact (stopsBehind_readHash 20 size).bind_pure _
  | blob =>
      exact (StopsBehind.octets size).bind_pure _
  | vector256 =>
      by_cases whole : size % 32 = 0
      · have same : size / 32 * 32 = size := by omega
        have hashes := (stopsBehind_readHashes 32 (size / 32)).bind_pure Scalar.vector256
        rw [same] at hashes
        simp only [read, if_pos whole]
        exact hashes
      · simp only [read, if_neg whole]
        exact StopsBehind.throw _ _
  | _ =>
      cases counted

/-- What is not counted is read without its length. -/
theorem read_of_uncounted {kind : ScalarKind} (uncounted : kind.counted = false)
    (size other : Option Nat) : read size kind = read other kind := by
  cases kind <;> first | rfl | cases uncounted

end Scalar

/-! ## Values of fields -/

namespace Object

/-- Reads the value of a field behind its length. -/
def readBehindSize (context : Context) (readValue : Field → Read Json) (field : Field)
    (size : Option Nat) : Read Json :=
  match field.kind with
  | .scalar kind => Scalar.read size kind >>= fun scalar =>
      match scalar.toJson context with
      | .ok shown => pure shown
      | .error fault => throw fault
  | .object => Read.nested (readObject context readValue)
  | .array => Read.nested (readArray context readValue)
  | .unsupported => throw (.unsupportedField field.name)

variable {context : Context} {field : Field} {readValue : Field → Read Json} {value : Json}

theorem readFieldValueWith_eq (context : Context) (readValue : Field → Read Json) (field : Field) :
    readFieldValueWith context readValue field =
      readSize field >>= readBehindSize context readValue field := by
  unfold readFieldValueWith readBehindSize
  refine congrArg (readSize field >>= ·) (funext fun size => ?_)
  cases field.kind <;> rfl

theorem readFieldValue_eq_ok_iff (flagged : field.lengthPrefixed = true) :
    readFieldValue context field before = .ok value after ↔
      ∃ size middle, Length.read before = .ok size middle ∧
        readBehindSize context (innerReader context before.levels) field (some size) middle =
          .ok value after := by
  rw [readFieldValue, Read.bind_of_ok (Read.get_apply _), readFieldValueAt_eq,
    readFieldValueWith_eq, readSize, if_pos flagged, map_eq_pure_bind, Read.bind_eq_ok]
  constructor
  · rintro ⟨_, middle, sizeRead, valueRead⟩
    obtain ⟨size, _, lengthRead, last⟩ := Read.bind_eq_ok.mp sizeRead
    obtain ⟨rfl, rfl⟩ := Read.pure_eq_ok.mp last
    exact ⟨size, _, lengthRead, valueRead⟩
  · rintro ⟨size, middle, lengthRead, valueRead⟩
    refine ⟨some size, middle, ?_, valueRead⟩
    rw [Read.bind_of_ok lengthRead, Read.pure_apply]

private theorem stopsBehind_readBehindSize (counted : field.kind.counted = true) (size : Nat) :
    StopsBehind size (readBehindSize context readValue field (some size)) := by
  unfold readBehindSize
  cases kind : field.kind with
  | scalar scalarKind =>
      rw [kind] at counted
      refine (Scalar.stopsBehind_read counted size).bind fun scalar => (?_ : StopsBehind 0 _)
      cases scalar.toJson context with
      | ok shown =>
          exact StopsBehind.pure shown
      | error fault =>
          exact StopsBehind.throw 0 fault
  | _ =>
      rw [kind] at counted
      cases counted

private theorem readBehindSize_of_uncounted (uncounted : field.kind.counted = false)
    (size other : Option Nat) :
    readBehindSize context readValue field size = readBehindSize context readValue field other := by
  unfold readBehindSize
  cases kind : field.kind with
  | scalar scalarKind =>
      rw [kind] at uncounted
      dsimp only
      rw [Scalar.read_of_uncounted uncounted size other]
  | _ =>
      rfl

/-- A value of a counted kind stops where the framed octets do. -/
theorem readFrame_of_counted (flagged : field.lengthPrefixed = true)
    (counted : field.kind.counted = true)
    (succeeded : readFieldValue context field before = .ok value after) :
    ∃ octets, Length.readFrame before = .ok octets after := by
  obtain ⟨size, middle, lengthRead, valueRead⟩ := (readFieldValue_eq_ok_iff flagged).mp succeeded
  obtain ⟨enough, rfl⟩ := stopsBehind_readBehindSize counted size _ _ _ valueRead
  refine ⟨middle.rest.take size, ?_⟩
  rw [Length.readFrame, Read.bind_of_ok lengthRead, Read.octets_of_le enough]

/-- A value of any other kind is read alike behind any length, so behind one of two
lengths it does not stop where the framed octets do. -/
theorem exists_misframed (flagged : field.lengthPrefixed = true)
    (uncounted : field.kind.counted = false)
    (succeeded : readFieldValue context field before = .ok value after) :
    ∃ start, readFieldValue context field start = .ok value after ∧
      ∀ octets, Length.readFrame start ≠ .ok octets after := by
  obtain ⟨size, middle, lengthRead, valueRead⟩ := (readFieldValue_eq_ok_iff flagged).mp succeeded
  obtain ⟨_, _, place⟩ := Length.read_eq_ok_iff.mp lengthRead
  have behind : middle.position - 1 + 1 = middle.position := by
    have positive := Length.length_spelling_pos size
    rw [place]
    dsimp only
    omega
  obtain ⟨other, small, differs⟩ :
      ∃ other ≤ 192, after.rest.length + other ≠ middle.rest.length := by
    by_cases same : after.rest.length = middle.rest.length
    · exact ⟨1, by omega, by omega⟩
    · exact ⟨0, by omega, by omega⟩
  have otherRead : Length.read ⟨middle.position - 1, UInt8.ofNat other :: middle.rest,
      middle.levels⟩ = .ok other middle := by
    have taken := Length.takes_read_one small (middle.position - 1) middle.rest middle.levels
    rw [List.length_singleton, behind] at taken
    exact taken
  refine ⟨_, (readFieldValue_eq_ok_iff flagged).mpr ⟨other, middle, otherRead, ?_⟩,
    fun octets framed => ?_⟩
  · rw [readBehindSize_of_uncounted uncounted (some other) (some size)]
    have levels : middle.levels = before.levels := by rw [place]
    rwa [levels]
  · rw [Length.readFrame, Read.bind_of_ok otherRead] at framed
    obtain ⟨enough, rfl⟩ := StopsBehind.octets other _ _ _ framed
    dsimp only at differs
    rw [List.length_drop] at differs
    omega

/-- Every value of a field with a length stops where as many octets as were announced do,
exactly if the kind of the field is a counted one, or no value of the field is ever read. -/
theorem readFieldValue_framed_iff (context : Context) {field : Field}
    (flagged : field.lengthPrefixed = true) :
    (∀ before value after, readFieldValue context field before = .ok value after →
        ∃ octets, Length.readFrame before = .ok octets after) ↔
      field.kind.counted = true ∨
        ∀ before value after, readFieldValue context field before ≠ .ok value after := by
  constructor
  · intro framed
    by_cases counted : field.kind.counted = true
    · exact .inl counted
    · refine .inr fun before value after succeeded => ?_
      obtain ⟨start, misread, elsewhere⟩ :=
        exists_misframed flagged (Bool.eq_false_iff.mpr counted) succeeded
      obtain ⟨octets, frameRead⟩ := framed start value after misread
      exact elsewhere octets frameRead
  · rintro (counted | unread) before value after succeeded
    · exact readFrame_of_counted flagged counted succeeded
    · exact absurd succeeded (unread before value after)

/-- A signature is read up to where its length says, and what follows is left. -/
theorem readFieldValue_framed_iff_signature :
    readFieldValue Context.standard ⟨"TxnSignature", "Blob", 7, 4, true, true, false⟩
        (Cursor.start [0x02, 0xAB, 0xCD, 0x81]) = .ok (.string "ABCD") ⟨3, [0x81], 64⟩ ∧
      ∃ octets, Length.readFrame (Cursor.start [0x02, 0xAB, 0xCD, 0x81]) =
        .ok octets ⟨3, [0x81], 64⟩ := by
  have succeeded : readFieldValue Context.standard
      ⟨"TxnSignature", "Blob", 7, 4, true, true, false⟩
      (Cursor.start [0x02, 0xAB, 0xCD, 0x81]) = .ok (.string "ABCD") ⟨3, [0x81], 64⟩ := by
    rfl
  exact ⟨succeeded, (readFieldValue_framed_iff Context.standard rfl).mpr (.inl rfl) _ _ _ succeeded⟩

/-- Definitions of a single number with a length in front. -/
def countedNumber : String :=
  "[\x7b\"UInt32\":2\x7d,\x7b\x7d,[[\"Count\",[1,true,true,true,\"UInt32\"]]]," ++
    "\x7b\x7d,\x7b\x7d]"

def countField : Field := ⟨"Count", "UInt32", 2, 1, true, true, true⟩

/-- The length says that one octet follows, and four are taken. -/
theorem number_read_beyond_length :
    ∃ registry, Registry.ofText countedNumber = .ok registry ∧ countField ∈ registry.fields ∧
      countField.lengthPrefixed = true ∧
      Length.read (Cursor.start [0x01, 0, 0, 0, 7]) = .ok 1 ⟨1, [0, 0, 0, 7], 64⟩ ∧
      readFieldValue ⟨registry, CheckedText.base58⟩ countField
        (Cursor.start [0x01, 0, 0, 0, 7]) = .ok (Json.ofNat 7) ⟨5, [], 64⟩ ∧
      ∀ octets, Length.readFrame (Cursor.start [0x01, 0, 0, 0, 7]) ≠ .ok octets ⟨5, [], 64⟩ := by
  have evaluated : ((Registry.ofText countedNumber).toOption.any fun registry =>
      registry.fields == [countField]) = true := by
    decide +kernel
  obtain ⟨registry, found, same⟩ := (Option.any_eq_true _ _).mp evaluated
  refine ⟨registry, Outcome.eq_ok_of_toOption found, ?_, rfl, rfl, rfl, fun octets framed => ?_⟩
  · rw [beq_iff_eq.mp same]
    exact List.mem_singleton_self _
  · cases framed

end Object

namespace Registry

/-- Of the ledger's own fields only those of counted kinds have a length in front. -/
theorem bundled_counted :
    ∀ field ∈ bundled.fields, field.lengthPrefixed = true → field.kind.counted = true := by
  decide +kernel

end Registry

/-- Over the ledger's own registry each value stops where its length says. -/
theorem Object.readFrame_of_bundled {context : Context} {field : Field} {value : Json}
    (member : field ∈ Registry.bundled.fields) (flagged : field.lengthPrefixed = true)
    (succeeded : readFieldValue context field before = .ok value after) :
    ∃ octets, Length.readFrame before = .ok octets after :=
  readFrame_of_counted flagged (Registry.bundled_counted field member flagged) succeeded

end LedgerWire
