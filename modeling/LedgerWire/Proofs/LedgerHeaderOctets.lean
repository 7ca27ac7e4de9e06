import LedgerWire.Ledger.Header
import LedgerWire.Proofs.Reading

/-!
# The octets of a ledger header

A header all of whose parts are known has 118 octets, and they determine it: it is read
from them whatever follows, and whatever 118 octets are read as has these octets again.
-/

namespace LedgerWire

variable {α β : Type}

/-! ## Readers of a fixed width -/

/-- The reader needs so many octets, and takes exactly them. -/
structure FixedWidth (count : Nat) (reader : Read α) : Prop where
  accepts : ∀ before : Cursor, count ≤ before.rest.length → ∃ value, reader before =
    .ok value ⟨before.position + count, before.rest.drop count, before.levels⟩
  refuses : ∀ before : Cursor, before.rest.length < count → ∃ needed remaining after,
    reader before = .error (.unexpectedEnd needed remaining) after

namespace FixedWidth

theorem pure (value : α) : FixedWidth 0 (pure value) where
  accepts _ _ := ⟨value, rfl⟩
  refuses before short := absurd short (Nat.not_lt_zero before.rest.length)

theorem bind {first : Read α} {next : α → Read β} {count others : Nat}
    (head : FixedWidth count first) (tail : ∀ value, FixedWidth others (next value)) :
    FixedWidth (count + others) (first >>= next) where
  accepts before enough := by
    obtain ⟨value, firstDone⟩ := head.accepts before (by omega)
    have enoughBehind : others ≤ (before.rest.drop count).length := by
      rw [List.length_drop]
      omega
    obtain ⟨result, nextDone⟩ := (tail value).accepts
      ⟨before.position + count, before.rest.drop count, before.levels⟩ enoughBehind
    rw [List.drop_drop, Nat.add_assoc] at nextDone
    exact ⟨result, (Read.bind_of_ok firstDone).trans nextDone⟩
  refuses before short := by
    by_cases enough : count ≤ before.rest.length
    · obtain ⟨value, firstDone⟩ := head.accepts before enough
      have shortBehind : (before.rest.drop count).length < others := by
        rw [List.length_drop]
        omega
      obtain ⟨needed, remaining, after, failed⟩ := (tail value).refuses
        ⟨before.position + count, before.rest.drop count, before.levels⟩ shortBehind
      exact ⟨needed, remaining, after, (Read.bind_of_ok firstDone).trans failed⟩
    · obtain ⟨needed, remaining, after, failed⟩ := head.refuses before (by omega)
      exact ⟨needed, remaining, after, Read.bind_of_error failed⟩

theorem octets (count : Nat) : FixedWidth count (Read.octets count) where
  accepts _ enough := ⟨_, Read.octets_of_le enough⟩
  refuses before short := by
    have taken : (before.rest.take count).length < count :=
      Nat.lt_of_le_of_lt (List.length_take_le' count before.rest) short
    exact ⟨count, before.remaining, before, by rw [Read.octets, if_pos taken]⟩

theorem number (width : Nat) : FixedWidth width (Read.number width) :=
  (octets width).bind fun bytes => FixedWidth.pure (Bytes.toNat bytes)

theorem hash (width : Nat) : FixedWidth width (Read.hash width) where
  accepts before enough := by
    have size : (before.rest.take width).length = width := List.length_take_of_le enough
    refine ⟨⟨before.rest.take width, size⟩, ?_⟩
    rw [Read.hash, Read.bind_of_ok (Read.octets_of_le enough)]
    simp only [Hash.ofBytes, Hash.ofBytes?, dif_pos size]
    rfl
  refuses before short := by
    obtain ⟨needed, remaining, after, failed⟩ := (octets width).refuses before short
    exact ⟨needed, remaining, after, Read.bind_of_error failed⟩

end FixedWidth

namespace LedgerHeader

/-! ## Writing -/

theorem exists_bytes_iff (header : LedgerHeader) :
    (∃ octets, header.bytes = .ok octets) ↔
      header.parentCloseTime.isSome ∧ header.closeFlags.isSome := by
  unfold bytes
  cases header.parentCloseTime with
  | none =>
      simp
  | some parentCloseTime =>
      cases header.closeFlags with
      | none =>
          simp
      | some closeFlags =>
          simp

/-- A header with octets has no unknown part. -/
theorem bytes_eq_ok {header : LedgerHeader} {octets : Bytes} :
    header.bytes = .ok octets ↔
      ∃ parentCloseTime closeFlags, header.parentCloseTime = some parentCloseTime ∧
        header.closeFlags = some closeFlags ∧
        octets = Bytes.ofNat 4 header.index.toNat ++ (Bytes.ofNat 8 header.totalCoins.toNat ++
          (header.parentHash.bytes ++ (header.transactionHash.bytes ++
            (header.accountHash.bytes ++ (Bytes.ofNat 4 parentCloseTime.toNat ++
              (Bytes.ofNat 4 header.closeTime.toNat ++
                ([header.closeTimeResolution] ++ [closeFlags]))))))) := by
  unfold bytes
  cases header.parentCloseTime with
  | none =>
      simp
  | some parentCloseTime =>
      cases header.closeFlags with
      | none =>
          simp
      | some closeFlags =>
          simp [eq_comm]

/-! ## Reading -/

private theorem fixedWidth_read : FixedWidth 118 read := by
  refine (FixedWidth.number 4).bind fun index => (?_ : FixedWidth 114 _)
  refine (FixedWidth.number 8).bind fun totalCoins => (?_ : FixedWidth 106 _)
  refine (FixedWidth.hash 32).bind fun parentHash => (?_ : FixedWidth 74 _)
  refine (FixedWidth.hash 32).bind fun transactionHash => (?_ : FixedWidth 42 _)
  refine (FixedWidth.hash 32).bind fun accountHash => (?_ : FixedWidth 10 _)
  refine (FixedWidth.number 4).bind fun parentCloseTime => (?_ : FixedWidth 6 _)
  refine (FixedWidth.number 4).bind fun closeTime => (?_ : FixedWidth 2 _)
  refine (FixedWidth.number 1).bind fun closeTimeResolution => (?_ : FixedWidth 1 _)
  exact (FixedWidth.number 1).bind fun closeFlags => FixedWidth.pure _

theorem takes_read {header : LedgerHeader} {octets : Bytes} (written : header.bytes = .ok octets) :
    Takes read octets header := by
  obtain ⟨parentCloseTime, closeFlags, knownTime, knownFlags, rfl⟩ := bytes_eq_ok.mp written
  refine (Takes.number header.index.toNat_lt).bind ?_
  refine (Takes.number header.totalCoins.toNat_lt).bind ?_
  refine (Takes.hash header.parentHash).bind ?_
  refine (Takes.hash header.transactionHash).bind ?_
  refine (Takes.hash header.accountHash).bind ?_
  refine (Takes.number parentCloseTime.toNat_lt).bind ?_
  refine (Takes.number header.closeTime.toNat_lt).bind ?_
  refine (Takes.byte header.closeTimeResolution).bind ?_
  refine (Takes.byte closeFlags).bind_pure ?_
  simp [← knownTime, ← knownFlags]

/-- The octets that a header was read from are its own. -/
theorem bytes_of_read {header : LedgerHeader} {before after : Cursor}
    (succeeded : read before = .ok header after) :
    ∃ octets, header.bytes = .ok octets ∧ Took before octets after := by
  obtain ⟨index, _, indexRead, others⟩ := Read.bind_eq_ok.mp succeeded
  obtain ⟨totalCoins, _, totalCoinsRead, others⟩ := Read.bind_eq_ok.mp others
  obtain ⟨parentHash, _, parentHashRead, others⟩ := Read.bind_eq_ok.mp others
  obtain ⟨transactionHash, _, transactionHashRead, others⟩ := Read.bind_eq_ok.mp others
  obtain ⟨accountHash, _, accountHashRead, others⟩ := Read.bind_eq_ok.mp others
  obtain ⟨parentCloseTime, _, parentCloseTimeRead, others⟩ := Read.bind_eq_ok.mp others
  obtain ⟨closeTime, _, closeTimeRead, others⟩ := Read.bind_eq_ok.mp others
  obtain ⟨closeTimeResolution, _, closeTimeResolutionRead, others⟩ := Read.bind_eq_ok.mp others
  obtain ⟨closeFlags, _, closeFlagsRead, others⟩ := Read.bind_eq_ok.mp others
  obtain ⟨rfl, rfl⟩ := Read.pure_eq_ok.mp others
  obtain ⟨tookIndex, indexBound⟩ := Read.number_eq_ok indexRead
  obtain ⟨tookTotalCoins, totalCoinsBound⟩ := Read.number_eq_ok totalCoinsRead
  have tookParentHash := Read.hash_eq_ok parentHashRead
  have tookTransactionHash := Read.hash_eq_ok transactionHashRead
  have tookAccountHash := Read.hash_eq_ok accountHashRead
  obtain ⟨tookParentCloseTime, parentCloseTimeBound⟩ := Read.number_eq_ok parentCloseTimeRead
  obtain ⟨tookCloseTime, closeTimeBound⟩ := Read.number_eq_ok closeTimeRead
  obtain ⟨tookCloseTimeResolution, _⟩ := Read.byte_eq_ok closeTimeResolutionRead
  obtain ⟨tookCloseFlags, _⟩ := Read.byte_eq_ok closeFlagsRead
  refine ⟨_, bytes_eq_ok.mpr ⟨_, _, rfl, rfl, rfl⟩, ?_⟩
  rw [UInt32.toNat_ofNat_of_lt' indexBound, UInt64.toNat_ofNat_of_lt' totalCoinsBound,
    UInt32.toNat_ofNat_of_lt' parentCloseTimeBound, UInt32.toNat_ofNat_of_lt' closeTimeBound]
  exact tookIndex.trans <| tookTotalCoins.trans <| tookParentHash.trans <|
    tookTransactionHash.trans <| tookAccountHash.trans <| tookParentCloseTime.trans <|
      tookCloseTime.trans <| tookCloseTimeResolution.trans tookCloseFlags

private theorem length_of_bytes {header : LedgerHeader} {octets : Bytes}
    (written : header.bytes = .ok octets) : octets.length = 118 := by
  obtain ⟨_, _, _, _, rfl⟩ := bytes_eq_ok.mp written
  simp [header.parentHash.length_bytes, header.transactionHash.length_bytes,
    header.accountHash.length_bytes]

/-! ## Headers and their octets -/

theorem decode_eq_ok {header : LedgerHeader} {octets : Bytes} :
    decode octets = .ok header ↔ 118 ≤ octets.length ∧ header.bytes = .ok (octets.take 118) := by
  constructor
  · intro decoded
    unfold decode Read.ofBytes at decoded
    split at decoded
    · rename_i succeeded
      cases decoded
      obtain ⟨front, written, took⟩ := bytes_of_read succeeded
      have size := length_of_bytes written
      have parts : octets = front ++ _ := took.rest
      rw [parts, List.take_left' size, List.length_append]
      exact ⟨by omega, written⟩
    · cases decoded
  · rintro ⟨enough, written⟩
    have taken := takes_read written 0 (octets.drop 118) Cursor.maxDepth
    rw [List.take_append_drop] at taken
    rw [decode, Read.ofBytes, Cursor.start, taken]

/-- With fewer octets the reader comes upon their end. -/
theorem decode_of_short {octets : Bytes} (short : octets.length < 118) :
    ∃ needed remaining, decode octets = .error (.unexpectedEnd needed remaining) := by
  obtain ⟨needed, remaining, after, failed⟩ := fixedWidth_read.refuses (Cursor.start octets) short
  exact ⟨needed, remaining, by rw [decode, Read.ofBytes, failed]⟩

theorem exists_decode_iff {octets : Bytes} :
    (∃ header, decode octets = .ok header) ↔ 118 ≤ octets.length := by
  constructor
  · rintro ⟨header, decoded⟩
    exact (decode_eq_ok.mp decoded).1
  · intro enough
    obtain ⟨header, succeeded⟩ := fixedWidth_read.accepts (Cursor.start octets) enough
    exact ⟨header, by rw [decode, Read.ofBytes, succeeded]⟩

/-- A header is written exactly if both parts that may be unknown are known, and is then
read from its octets in front of any others. Octets are read as a header exactly if there
are 118 of them, and the first 118 are then what the header is written as. So the octets
that are hashed determine the header. -/
theorem octets_determine_header :
    (∀ header : LedgerHeader, (∃ octets, header.bytes = .ok octets) ↔
      header.parentCloseTime.isSome ∧ header.closeFlags.isSome) ∧
    (∀ (header : LedgerHeader) octets rest, header.bytes = .ok octets →
      decode (octets ++ rest) = .ok header) ∧
    (∀ octets, (∃ header, decode octets = .ok header) ↔ 118 ≤ octets.length) ∧
    (∀ octets, octets.length < 118 →
      ∃ needed remaining, decode octets = .error (.unexpectedEnd needed remaining)) ∧
    (∀ octets header, decode octets = .ok header → header.bytes = .ok (octets.take 118)) ∧
    ∀ (one other : LedgerHeader) octets, one.bytes = .ok octets → other.bytes = .ok octets →
      one = other := by
  have readBack (header : LedgerHeader) (octets rest : Bytes)
      (written : header.bytes = .ok octets) : decode (octets ++ rest) = .ok header := by
    have size := length_of_bytes written
    rw [decode_eq_ok, List.take_left' size, List.length_append]
    exact ⟨by omega, written⟩
  refine ⟨exists_bytes_iff, readBack, fun octets => exists_decode_iff,
    fun octets => decode_of_short, fun octets header decoded => (decode_eq_ok.mp decoded).2, ?_⟩
  intro one other octets written otherWritten
  have same := (readBack one octets [] written).symm.trans (readBack other octets [] otherWritten)
  exact Except.ok.inj same

/-- A ledger that was closed without flags, all of whose parts are known. -/
def closedLedger : LedgerHeader where
  index := 38129
  totalCoins := 99999999999999997
  parentHash := Hash.zero 32
  transactionHash := ⟨List.replicate 31 0 ++ [1], rfl⟩
  accountHash := ⟨List.replicate 31 0 ++ [2], rfl⟩
  parentCloseTime := some 410062560
  closeTime := 410062570
  closeTimeResolution := 10
  closeFlags := some 0

def closedLedgerOctets : Bytes :=
  [0, 0, 148, 241, 1, 99, 69, 120, 93, 137, 255, 253] ++ List.replicate 63 0 ++ [1] ++
    List.replicate 31 0 ++ [2, 24, 113, 14, 224, 24, 113, 14, 234, 10, 0]

/-- The octets of a ledger are read as it with an octet behind them, they are those of no
other ledger, and without the last of them none is read. -/
theorem octets_determine_closedLedger :
    closedLedger.bytes = .ok closedLedgerOctets ∧
      decode (closedLedgerOctets ++ [255]) = .ok closedLedger ∧
      closedLedger.bytes = .ok ((closedLedgerOctets ++ [255]).take 118) ∧
      (∀ other : LedgerHeader, other.bytes = .ok closedLedgerOctets → closedLedger = other) ∧
      ∃ needed remaining,
        decode closedLedgerOctets.dropLast = .error (.unexpectedEnd needed remaining) := by
  have written : closedLedger.bytes = .ok closedLedgerOctets := rfl
  obtain ⟨_, readBack, _, short, again, unique⟩ := octets_determine_header
  have decoded := readBack closedLedger closedLedgerOctets [255] written
  exact ⟨written, decoded, again _ closedLedger decoded,
    fun other => unique closedLedger other closedLedgerOctets written, short _ (by decide)⟩

end LedgerHeader

end LedgerWire
