import LedgerWire.Proofs.Consumption

/-!
# Values that end by themselves

No length stands in front of a set of paths or of an amount: its own octets tell
where it ends. A set is read back from its octets exactly when each of its hops
has a part and it is not a lone empty path, and no other set is ever read. An
amount stands for the octets that were read for it, all of them, and each amount
that a document or an input can give is read back.
-/

namespace LedgerWire

variable {before after : Cursor}

/-- The place behind what was read is as far on as there were octets. -/
theorem Exact.eq_behind {α : Type} {reader : Read α} (exact : Exact reader) {value : α}
    (succeeded : reader before = .ok value after) :
    ∃ count ≤ before.rest.length,
      after = ⟨before.position + count, before.rest.drop count, before.levels⟩ := by
  obtain ⟨octets, took, taken⟩ := exact _ _ _ succeeded
  have again := taken before.position after.rest before.levels
  rw [← took.rest, succeeded] at again
  refine ⟨octets.length, ?_, ?_⟩
  · rw [took.rest, List.length_append]
    exact Nat.le_add_right _ _
  · rw [took.rest, List.drop_left]
    injection again

/-! ## Sets of paths -/

namespace PathSet

/-- A set that its octets delimit: a hop without a part would begin as a set ends, and
a lone empty path is written as no path. -/
structure Delimited (set : PathSet) : Prop where
  hasPart : ∀ path ∈ set.paths, ∀ hop ∈ path, hop.hasPart = true
  notLone : set.paths ≠ [[]]

theorem settled_eq_iff {set : PathSet} : set.settled = set ↔ set.paths ≠ [[]] := by
  obtain ⟨paths⟩ := set
  by_cases lone : paths = [[]]
  · simp [settled, lone]
  · simp [settled, lone]

private theorem delimited_of_read {set : PathSet} (succeeded : read before = .ok set after) :
    set.Delimited := by
  obtain ⟨_, settled, stepped⟩ := read_eq_ok succeeded
  exact ⟨stepped, settled_eq_iff.mp settled⟩

/-- A set is read back from its octets, whatever follows them, exactly when they delimit
it, and whatever is read is such a set. -/
theorem read_bytes_iff_delimited :
    (∀ (set : PathSet) (position : Nat) (rest : Bytes) (levels : Nat),
      read ⟨position, set.bytes ++ rest, levels⟩ =
          .ok set ⟨position + set.bytes.length, rest, levels⟩ ↔
        set.Delimited) ∧
      ∀ (before : Cursor) (set : PathSet) (after : Cursor),
        read before = .ok set after → set.Delimited := by
  refine ⟨fun set position rest levels => ⟨delimited_of_read, fun delimited => ?_⟩,
    fun _ _ _ => delimited_of_read⟩
  have taken := takes_read delimited.hasPart
  rw [settled_eq_iff.mpr delimited.notLone] at taken
  exact taken position rest levels

/-- Two empty paths are read back, a lone one is not, and neither is a hop without a
part. -/
theorem read_bytes_of_emptyPaths :
    read ⟨0, bytes ⟨[[], []]⟩ ++ [0x20], 64⟩ = .ok ⟨[[], []]⟩ ⟨2, [0x20], 64⟩ ∧
      read ⟨0, bytes ⟨[[]]⟩ ++ [0x20], 64⟩ ≠ .ok ⟨[[]]⟩ ⟨1, [0x20], 64⟩ ∧
      read ⟨0, bytes ⟨[[⟨none, none, none⟩], []]⟩ ++ [0x20], 64⟩ ≠
        .ok ⟨[[⟨none, none, none⟩], []]⟩ ⟨3, [0x20], 64⟩ := by
  obtain ⟨framed, _⟩ := read_bytes_iff_delimited
  refine ⟨(framed ⟨[[], []]⟩ 0 [0x20] 64).mpr ⟨by decide, by decide⟩, fun read => ?_,
    fun read => ?_⟩
  · exact ((framed ⟨[[]]⟩ 0 [0x20] 64).mp read).notLone rfl
  · have stepped := ((framed ⟨[[⟨none, none, none⟩], []]⟩ 0 [0x20] 64).mp read).hasPart
    exact absurd stepped (by decide)

end PathSet

/-! ## Amounts -/

namespace Amount

/-- The number of octets of the amount in front, told by the highest bit of its first
word. -/
def span (octets : Bytes) : Nat :=
  if (Bytes.toNat (octets.take 8)).testBit 63 then 48 else 8

/-- The word of an issued amount has the bit that tells it from drops. -/
def Flagged : Amount → Prop
  | .native _ _ => True
  | .issued value _ _ => 2 ^ 63 ≤ value.toNat

/-- Where an amount can come from: a document, or octets that were read. -/
inductive Obtained (writing : CheckedText) (amount : Amount) : Prop
  | given {json : Json} (taken : ofJson writing json = .ok amount)
  | read {before after : Cursor} (taken : Amount.read before = .ok amount after)

private theorem takes_bytes {amount : Amount} (flagged : amount.Flagged) :
    Takes read amount.bytes amount := by
  cases amount with
  | native negative drops =>
      exact takes_read_native
  | issued value currency issuer =>
      exact takes_read_issued flagged currency issuer

private theorem flagged_of_ofJson {writing : CheckedText} {json : Json} {amount : Amount}
    (given : ofJson writing json = .ok amount) : amount.Flagged := by
  unfold ofJson at given
  split at given
  · obtain ⟨drops, _, _, rfl⟩ := ofDrops_eq_ok.mp given
    exact True.intro
  · obtain ⟨_, _, _, word, _, _, _, valueRead, _, _, rfl⟩ := ofEntries_eq_ok.mp given
    exact (issuedValue_of_valueOfJson valueRead).2.2
  · cases given

/-- The first octet of a word tells its highest bit. -/
theorem span_of_first {first : UInt8} {tail : Bytes} {word : Nat} (bound : word < 256 ^ 8)
    (took : Took before (Bytes.ofNat 8 word) after) (inFront : before.rest = first :: tail) :
    (first < 0x80 ↔ word < 2 ^ 63) ∧
      span before.rest = if first < 0x80 then 8 else 48 := by
  obtain ⟨others, shown⟩ := Bytes.ofNat_eight word
  have same := took.rest
  rw [inFront, shown, List.cons_append] at same
  obtain ⟨rfl, _⟩ := List.cons.inj same
  have low : UInt8.ofNat (word / 256 ^ 7) < 0x80 ↔ word < 2 ^ 63 := by
    rw [UInt8.lt_iff_toNat_lt, UInt8.toNat_ofNat']
    change _ < 128 ↔ _
    omega
  have front : before.rest.take 8 = Bytes.ofNat 8 word := by
    rw [took.rest]
    exact List.take_left' (Bytes.length_ofNat 8 word)
  have highest : word.testBit 63 = true ↔ ¬ word < 2 ^ 63 := by
    rw [Nat.testBit_eq_decide_div_mod_eq, decide_eq_true_iff]
    omega
  refine ⟨low, ?_⟩
  rw [span, front, Bytes.toNat_ofNat_of_lt bound]
  by_cases small : word < 2 ^ 63
  · rw [if_pos (low.mpr small), if_neg (fun set => highest.mp set small)]
  · rw [if_neg (fun below => small (low.mp below)), if_pos (highest.mpr small)]

private theorem bytes_of_drops {word : Nat} (small : word < 2 ^ 63) :
    (native (word / 2 ^ 62 % 2 == 0) (Fin.ofNat _ word)).bytes = Bytes.ofNat 8 word := by
  rw [bytes]
  congr 1
  simp only [Fin.ofNat, beq_iff_eq]
  split <;> omega

/-- An amount that was read stands for the octets that it took. -/
theorem read_eq_ok {amount : Amount} (succeeded : read before = .ok amount after) :
    Took before amount.bytes after ∧ amount.Flagged ∧
      amount.bytes.length = span before.rest := by
  obtain ⟨first, middle, seen, others⟩ := Read.bind_eq_ok.mp succeeded
  obtain ⟨tail, inFront, rfl⟩ := Read.peek_eq_ok seen
  split at others
  · rename_i low
    obtain ⟨word, middle, wordRead, last⟩ := Read.bind_eq_ok.mp others
    obtain ⟨rfl, rfl⟩ := Read.pure_eq_ok.mp last
    obtain ⟨took, bound⟩ := Read.number_eq_ok wordRead
    obtain ⟨clear, size⟩ := span_of_first bound took inFront
    rw [bytes_of_drops (clear.mp low), size, if_pos low]
    exact ⟨took, True.intro, Bytes.length_ofNat 8 word⟩
  · rename_i high
    obtain ⟨word, middle, wordRead, last⟩ := Read.bind_eq_ok.mp others
    obtain ⟨currency, place, currencyRead, last⟩ := Read.bind_eq_ok.mp last
    obtain ⟨issuer, ending, issuerRead, last⟩ := Read.bind_eq_ok.mp last
    obtain ⟨rfl, rfl⟩ := Read.pure_eq_ok.mp last
    obtain ⟨took, bound⟩ := Read.number_eq_ok wordRead
    obtain ⟨clear, size⟩ := span_of_first bound took inFront
    have kept : (UInt64.ofNat word).toNat = word := UInt64.toNat_ofNat_of_lt' bound
    have tookAll := (took.trans (Currency.read_eq_ok currencyRead)).trans
      (Read.hash_eq_ok issuerRead)
    rw [bytes, kept, size, if_neg high]
    refine ⟨tookAll, ?_, ?_⟩
    · rw [Flagged, kept]
      exact Nat.not_lt.mp fun small => high (clear.mpr small)
    · simp [Currency.bytes, Hash.length_bytes]

/-- The octets that were read for an amount are its own, eight of them if the highest
bit of the first word is clear and else 48, and every amount that there is is read
back from its octets, whatever follows them. -/
theorem bytes_read_lossless (writing : CheckedText) :
    (∀ (before : Cursor) (amount : Amount) (after : Cursor), read before = .ok amount after →
      span before.rest ≤ before.rest.length ∧
        after = ⟨before.position + span before.rest, before.rest.drop (span before.rest),
          before.levels⟩ ∧
        amount.bytes = before.rest.take (span before.rest)) ∧
      ∀ amount : Amount, Obtained writing amount → ∀ position rest levels,
        read ⟨position, amount.bytes ++ rest, levels⟩ =
          .ok amount ⟨position + amount.bytes.length, rest, levels⟩ := by
  constructor
  · intro before amount after succeeded
    obtain ⟨took, _, size⟩ := read_eq_ok succeeded
    obtain ⟨count, enough, rfl⟩ := exact_read.eq_behind succeeded
    have same : count = span before.rest := by
      have lengths := congrArg List.length took.rest
      rw [List.length_append, List.length_drop, size] at lengths
      omega
    rw [← same] at size ⊢
    refine ⟨enough, rfl, ?_⟩
    rw [took.rest]
    exact (List.take_left' size).symm
  · intro amount obtained
    cases obtained with
    | given taken =>
        exact takes_bytes (flagged_of_ofJson taken)
    | read taken =>
        exact takes_bytes (read_eq_ok taken).2.1

/-- A negative number of drops, which no document gives, takes eight octets, and a word
of ones all 48. -/
theorem bytes_read_lossless_minus :
    read ⟨0, [0, 0, 0, 0, 0, 0, 0, 5, 0xAA], 64⟩ = .ok (native true 5) ⟨8, [0xAA], 64⟩ ∧
      (native true 5).bytes = [0, 0, 0, 0, 0, 0, 0, 5] ∧
      (∀ rest, read ⟨0, (native true 5).bytes ++ rest, 64⟩ = .ok (native true 5) ⟨8, rest, 64⟩) ∧
      ∃ amount, read ⟨0, List.replicate 50 0xFF, 64⟩ =
          .ok amount ⟨48, List.replicate 2 0xFF, 64⟩ ∧
        amount.bytes = List.replicate 48 0xFF := by
  obtain ⟨spelled, taken⟩ := bytes_read_lossless CheckedText.base58
  have written : (native true 5).bytes = [0, 0, 0, 0, 0, 0, 0, 5] := by decide +kernel
  have minus : read ⟨0, [0, 0, 0, 0, 0, 0, 0, 5, 0xAA], 64⟩ =
      .ok (native true 5) ⟨8, [0xAA], 64⟩ := by
    have behind : read ⟨0, (native true 5).bytes ++ [0xAA], 64⟩ =
        .ok (native true 5) ⟨0 + (native true 5).bytes.length, [0xAA], 64⟩ :=
      takes_read_native 0 [0xAA] 64
    rw [written] at behind
    exact behind
  obtain ⟨amount, ones⟩ : ∃ amount, read ⟨0, List.replicate 50 0xFF, 64⟩ =
      .ok amount ⟨48, List.replicate 2 0xFF, 64⟩ := ⟨_, rfl⟩
  have wide : span (List.replicate 50 0xFF) = 48 := by decide +kernel
  have onesBytes := (spelled _ _ _ ones).2.2
  rw [wide] at onesBytes
  refine ⟨minus, written, fun rest => ?_, amount, ones, onesBytes⟩
  have again := taken _ (Obtained.read minus) 0 rest 64
  rw [written] at again ⊢
  exact again

end Amount

end LedgerWire
