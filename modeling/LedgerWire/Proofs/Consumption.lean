import LedgerWire.Object.Decoding
import LedgerWire.Proofs.Framing
import LedgerWire.Proofs.Paths

/-!
# What a reader took

A reader that has succeeded stands behind the octets that it took, and it takes
them for the same value in front of any others.
-/

namespace LedgerWire

/-- Whatever the reader succeeds with, it takes certain octets for it. -/
def Exact {α : Type} (reader : Read α) : Prop :=
  ∀ before value after, reader before = .ok value after →
    ∃ bytes, Took before bytes after ∧ Takes reader bytes value

variable {α β : Type} {before after : Cursor}

namespace Exact

theorem pure (value : α) : Exact (pure value) := by
  intro before result after succeeded
  obtain ⟨rfl, rfl⟩ := Read.pure_eq_ok.mp succeeded
  exact ⟨[], Took.refl _, Takes.pure _⟩

theorem throw (fault : Error) : Exact (throw fault : Read α) := by
  intro before result after succeeded
  cases succeeded

theorem bind {first : Read α} {next : α → Read β} (head : Exact first)
    (tail : ∀ value, Exact (next value)) : Exact (first >>= next) := by
  intro before result after succeeded
  obtain ⟨value, middle, firstDone, nextDone⟩ := Read.bind_eq_ok.mp succeeded
  obtain ⟨left, tookLeft, takesLeft⟩ := head _ _ _ firstDone
  obtain ⟨right, tookRight, takesRight⟩ := tail value _ _ _ nextDone
  exact ⟨left ++ right, tookLeft.trans tookRight, takesLeft.bind takesRight⟩

theorem bind_pure {first : Read α} (head : Exact first) (last : α → β) :
    Exact (first >>= fun value => Pure.pure (last value)) :=
  head.bind fun value => Exact.pure (last value)

theorem map {reader : Read α} (exact : Exact reader) (function : α → β) :
    Exact (function <$> reader) := by
  rw [map_eq_pure_bind]
  exact exact.bind_pure function

theorem ite {condition : Prop} [Decidable condition] {first second : Read α}
    (yes : Exact first) (no : Exact second) :
    Exact (if condition then first else second) := by
  split
  · exact yes
  · exact no

theorem octets (count : Nat) : Exact (Read.octets count) := by
  intro before bytes after succeeded
  obtain ⟨took, size⟩ := Read.octets_eq_ok succeeded
  exact ⟨bytes, took, Takes.octets_of_length size⟩

theorem number (width : Nat) : Exact (Read.number width) :=
  (octets width).bind_pure Bytes.toNat

theorem hash (width : Nat) : Exact (Read.hash width) := by
  intro before value after succeeded
  exact ⟨value.bytes, Read.hash_eq_ok succeeded, Takes.hash value⟩

/-- A reader that begins by looking at an octet that it then takes. -/
theorem peek {next : UInt8 → Read α} (inside : ∀ first, Exact (next first))
    (consumes : ∀ first value, ¬ Takes (next first) [] value) : Exact (Read.peek >>= next) := by
  intro before result after succeeded
  obtain ⟨first, middle, seen, nextDone⟩ := Read.bind_eq_ok.mp succeeded
  obtain ⟨tail, inFront, rfl⟩ := Read.peek_eq_ok seen
  obtain ⟨bytes, took, takes⟩ := inside first _ _ _ nextDone
  cases bytes with
  | nil =>
      exact absurd takes (consumes first result)
  | cons byte bytes =>
      have same : first = byte := by
        have joined := inFront.symm.trans took.rest
        exact (List.cons.inj joined).1
      subst same
      exact ⟨_, took, Takes.peek takes⟩

end Exact

/-! ## Lengths and headers -/

theorem Length.exact_read : Exact Length.read := by
  apply (Exact.number 1).bind
  intro first
  apply (Exact.pure first).ite
  apply ((Exact.number 1).bind_pure _).ite
  apply Exact.ite
  · exact (Exact.number 1).bind fun middle => (Exact.number 1).bind_pure _
  · exact Exact.throw _

theorem Object.exact_readSize (field : Field) : Exact (Object.readSize field) := by
  exact (Length.exact_read.map some).ite (Exact.pure none)

namespace Header

theorem readCode_eq_ok {given code : Nat} {fault : Nat → HeaderFault} (small : given < 16)
    (succeeded : readCode given fault before = .ok code after) :
    Took before (extension code) after ∧ half code = given ∧ 0 < code ∧ code < 256 := by
  unfold readCode at succeeded
  split at succeeded
  · rename_i own
    unfold readExtended at succeeded
    obtain ⟨value, middle, taken, last⟩ := Read.bind_eq_ok.mp succeeded
    obtain ⟨took, bound⟩ := Read.byte_eq_ok taken
    split at last
    · cases last
    · rename_i wide
      obtain ⟨rfl, rfl⟩ := Read.pure_eq_ok.mp last
      rw [extension, half, if_neg wide, if_neg wide]
      exact ⟨took, own.symm, by omega, bound⟩
  · obtain ⟨rfl, rfl⟩ := Read.pure_eq_ok.mp succeeded
    rw [extension, half, if_pos small, if_pos small]
    exact ⟨Took.refl _, rfl, by omega, by omega⟩

theorem read_eq_ok {typeCode nth : Nat} (succeeded : read before = .ok (typeCode, nth) after) :
    Took before (Field.headerOf typeCode nth) after ∧ (0 < typeCode ∧ typeCode < 256) ∧
      0 < nth ∧ nth < 256 := by
  rw [read_eq] at succeeded
  obtain ⟨first, _, firstRead, others⟩ := Read.bind_eq_ok.mp succeeded
  obtain ⟨high, _, highRead, others⟩ := Read.bind_eq_ok.mp others
  obtain ⟨low, _, lowRead, others⟩ := Read.bind_eq_ok.mp others
  obtain ⟨same, rfl⟩ := Read.pure_eq_ok.mp others
  cases same
  obtain ⟨tookFirst, bound⟩ := Read.byte_eq_ok firstRead
  obtain ⟨tookHigh, highHalf, highBounds⟩ := readCode_eq_ok (by omega) highRead
  obtain ⟨tookLow, lowHalf, lowBounds⟩ := readCode_eq_ok (by omega) lowRead
  have spelled : first = half typeCode * 16 + half nth := by
    rw [highHalf, lowHalf]
    omega
  rw [headerOf_eq, ← spelled]
  exact ⟨tookFirst.trans (tookHigh.trans tookLow), highBounds, lowBounds⟩

/-- The octets of a header are those of the field that it leads to. -/
theorem readField_eq_ok {registry : Registry} {field : Field}
    (succeeded : readField registry before = .ok field after) :
    Took before field.header after ∧ field ∈ registry.fields ∧
      Takes (readField registry) field.header field := by
  obtain ⟨⟨typeCode, nth⟩, middle, headerRead, last⟩ := Read.bind_eq_ok.mp succeeded
  obtain ⟨took, ⟨typePositive, typeBound⟩, nthPositive, nthBound⟩ := read_eq_ok headerRead
  cases found : registry.fieldAt? typeCode nth with
  | none =>
      simp only [found] at last
      cases last
  | some other =>
      simp only [found] at last
      obtain ⟨rfl, rfl⟩ := Read.pure_eq_ok.mp last
      have matched := List.find?_some found
      simp only [Bool.and_eq_true, beq_iff_eq] at matched
      obtain ⟨⟨serialized, rfl⟩, rfl⟩ := matched
      have written : other.header = Field.headerOf other.typeCode other.nth :=
        if_pos ⟨serialized, nthBound, typeBound⟩
      have headed : other.header ≠ [] := by
        rw [written, headerOf_eq]
        exact List.cons_ne_nil _ _
      rw [← written] at took
      exact ⟨took, List.mem_of_find?_eq_some found,
        takes_readField typePositive nthPositive headed found⟩

/-- No header is empty. -/
theorem ne_nil_of_takes {registry : Registry} {field : Field} {header : Bytes}
    (taken : Takes (readField registry) header field) : header ≠ [] := by
  rintro rfl
  have nothing : readField registry ⟨0, [], 0⟩ = .ok field ⟨0, [], 0⟩ := taken 0 [] 0
  obtain ⟨_, _, headerRead, _⟩ := Read.bind_eq_ok.mp nothing
  obtain ⟨_, _, byteRead, _⟩ := Read.bind_eq_ok.mp headerRead
  cases byteRead

end Header

/-! ## Paths -/

theorem Currency.read_eq_ok {currency : Currency}
    (succeeded : Currency.read before = .ok currency after) :
    Took before currency.bytes after := by
  obtain ⟨hash, middle, taken, last⟩ := Read.bind_eq_ok.mp succeeded
  obtain ⟨rfl, rfl⟩ := Read.pure_eq_ok.mp last
  exact Read.hash_eq_ok taken

theorem Currency.exact_read : Exact Currency.read :=
  (Exact.hash 20).bind_pure Currency.mk

namespace Hop

theorem readPart_eq_ok {reader : Read α} {bytes : α → Bytes} {present : Bool} {part : Option α}
    (spelled : ∀ {before value after}, reader before = .ok value after →
      Took before (bytes value) after)
    (succeeded : readPart present reader before = .ok part after) :
    Took before (part.elim [] bytes) after ∧ part.isSome = present := by
  unfold readPart at succeeded
  cases present with
  | false =>
      obtain ⟨rfl, rfl⟩ := Read.pure_eq_ok.mp succeeded
      exact ⟨Took.refl _, rfl⟩
  | true =>
      rw [if_pos rfl, map_eq_pure_bind] at succeeded
      obtain ⟨value, middle, taken, last⟩ := Read.bind_eq_ok.mp succeeded
      obtain ⟨rfl, rfl⟩ := Read.pure_eq_ok.mp last
      exact ⟨spelled taken, rfl⟩

/-- A first octet that is taken is the sum of the bits of its parts. -/
theorem flags_of_isFlags {flags : Nat} (valid : isFlags flags = true) :
    flags = (if hasBit flags accountBit then accountBit else 0) +
      (if hasBit flags currencyBit then currencyBit else 0) +
      (if hasBit flags issuerBit then issuerBit else 0) := by
  rw [isFlags, Bool.and_eq_true, decide_eq_true_iff, beq_iff_eq, accountBit] at valid
  have small : flags < 64 := by omega
  simp only [hasBit, accountBit, currencyBit, issuerBit, beq_iff_eq]
  split <;> split <;> split <;> omega

theorem read_eq_ok {hop : Hop} (succeeded : read before = .ok hop after) :
    Took before hop.bytes after := by
  rw [read_eq] at succeeded
  obtain ⟨flags, first, flagsRead, others⟩ := Read.bind_eq_ok.mp succeeded
  split at others
  · cases others
  · rename_i valid
    rw [Bool.not_eq_true, Bool.not_eq_false'] at valid
    obtain ⟨account, second, accountRead, others⟩ := Read.bind_eq_ok.mp others
    obtain ⟨currency, third, currencyRead, others⟩ := Read.bind_eq_ok.mp others
    obtain ⟨issuer, last, issuerRead, others⟩ := Read.bind_eq_ok.mp others
    obtain ⟨rfl, rfl⟩ := Read.pure_eq_ok.mp others
    obtain ⟨tookAccount, hasAccount⟩ := readPart_eq_ok Read.hash_eq_ok accountRead
    obtain ⟨tookCurrency, hasCurrency⟩ := readPart_eq_ok Currency.read_eq_ok currencyRead
    obtain ⟨tookIssuer, hasIssuer⟩ := readPart_eq_ok Read.hash_eq_ok issuerRead
    have same : Hop.flags ⟨account, currency, issuer⟩ = flags := by
      rw [Hop.flags, hasAccount, hasCurrency, hasIssuer]
      exact (flags_of_isFlags valid).symm
    have whole := (Read.byte_eq_ok flagsRead).1.trans
      ((tookAccount.trans tookCurrency).trans tookIssuer)
    rw [bytes, same]
    exact whole

private theorem flags_of_partless {hop : Hop} (partless : ¬ hop.hasPart = true) :
    hop.flags = 0 := by
  unfold hasPart at partless
  unfold flags
  grind

end Hop

namespace PathSet

/-- Hops are read up to an octet that ends the path. -/
theorem readHops_eq_ok {fuel : Nat} {path : Path}
    (succeeded : readHops fuel before = .ok path after) :
    Took before (pathBytes path) after ∧ (∀ hop ∈ path, hop.hasPart = true) ∧
      ∃ mark rest, after.rest = mark :: rest ∧ IsMark mark := by
  induction fuel generalizing before path with
  | zero =>
      cases succeeded
  | succ fuel inductionHypothesis =>
      obtain ⟨next, middle, seen, others⟩ := Read.bind_eq_ok.mp succeeded
      obtain ⟨tail, inFront, rfl⟩ := Read.peek_eq_ok seen
      by_cases isMark : IsMark next
      · rw [if_pos isMark] at others
        obtain ⟨rfl, rfl⟩ := Read.pure_eq_ok.mp others
        exact ⟨Took.refl _, by simp, next, tail, inFront, isMark⟩
      · rw [if_neg isMark] at others
        obtain ⟨hop, second, hopRead, others⟩ := Read.bind_eq_ok.mp others
        obtain ⟨behind, third, behindRead, others⟩ := Read.bind_eq_ok.mp others
        obtain ⟨rfl, rfl⟩ := Read.pure_eq_ok.mp others
        have tookHop := Hop.read_eq_ok hopRead
        obtain ⟨tookBehind, stepped, ended⟩ := inductionHypothesis behindRead
        refine ⟨tookHop.trans tookBehind, ?_, ended⟩
        rw [List.forall_mem_cons]
        refine ⟨?_, stepped⟩
        by_contra partless
        have first : next = UInt8.ofNat hop.flags :=
          (List.cons.inj (inFront.symm.trans tookHop.rest)).1
        rw [Hop.flags_of_partless partless] at first
        exact isMark (.inr first)

theorem readPaths_eq_ok {fuel : Nat} {paths : List Path}
    (succeeded : readPaths fuel before = .ok paths after) :
    Took before (separated paths ++ [terminator]) after ∧ paths ≠ [] ∧
      ∀ path ∈ paths, ∀ hop ∈ path, hop.hasPart = true := by
  induction fuel generalizing before paths with
  | zero =>
      cases succeeded
  | succ fuel inductionHypothesis =>
      rw [readPaths, Read.bind_of_ok (Read.get_apply _)] at succeeded
      obtain ⟨path, first, pathRead, others⟩ := Read.bind_eq_ok.mp succeeded
      obtain ⟨octet, second, markRead, others⟩ := Read.bind_eq_ok.mp others
      obtain ⟨tookPath, stepped, mark, rest, inFront, isMark⟩ := readHops_eq_ok pathRead
      obtain ⟨tookMark, bound⟩ := Read.byte_eq_ok markRead
      have same : UInt8.ofNat octet = mark :=
        (List.cons.inj (tookMark.rest.symm.trans inFront)).1
      split at others
      · rename_i separates
        obtain ⟨behind, third, behindRead, others⟩ := Read.bind_eq_ok.mp others
        obtain ⟨rfl, rfl⟩ := Read.pure_eq_ok.mp others
        obtain ⟨tookBehind, several, behindStepped⟩ := inductionHypothesis behindRead
        refine ⟨?_, List.cons_ne_nil _ _, List.forall_mem_cons.mpr ⟨stepped, behindStepped⟩⟩
        obtain ⟨next, others, rfl⟩ := List.exists_cons_of_ne_nil several
        rw [separates] at tookMark
        have whole := tookPath.trans (tookMark.trans tookBehind)
        simpa [separated] using whole
      · rename_i ends
        obtain ⟨rfl, rfl⟩ := Read.pure_eq_ok.mp others
        have terminates : mark = terminator := by
          apply isMark.resolve_left
          intro isSeparator
          have octets := congrArg UInt8.toNat (same.trans isSeparator)
          rw [UInt8.toNat_ofNat_of_lt' bound] at octets
          exact ends octets
        rw [same, terminates] at tookMark
        exact ⟨tookPath.trans tookMark, List.cons_ne_nil _ _, by simpa using stepped⟩

/-- A set that has been read is settled, and each of its hops has a part. -/
theorem read_eq_ok {set : PathSet} (succeeded : read before = .ok set after) :
    Took before set.bytes after ∧ set.settled = set ∧
      ∀ path ∈ set.paths, ∀ hop ∈ path, hop.hasPart = true := by
  rw [read, Read.bind_of_ok (Read.get_apply _)] at succeeded
  obtain ⟨paths, middle, taken, last⟩ := Read.bind_eq_ok.mp succeeded
  obtain ⟨rfl, rfl⟩ := Read.pure_eq_ok.mp last
  obtain ⟨took, _, stepped⟩ := readPaths_eq_ok taken
  by_cases lone : paths = [[]]
  · rw [if_pos lone]
    rw [lone] at took
    exact ⟨took, rfl, by simp⟩
  · rw [if_neg lone]
    refine ⟨took, ?_, stepped⟩
    rw [settled, if_neg lone]

theorem exact_read : Exact read := by
  intro before set after succeeded
  obtain ⟨took, settled, stepped⟩ := read_eq_ok succeeded
  refine ⟨set.bytes, took, ?_⟩
  have taken := takes_read stepped
  rwa [settled] at taken

end PathSet

/-! ## Amounts -/

namespace Amount

theorem exact_read : Exact read := by
  apply Exact.peek
  · intro first
    apply ((Exact.number 8).bind_pure _).ite
    exact (Exact.number 8).bind fun value =>
      Currency.exact_read.bind fun currency => (Exact.hash 20).bind_pure _
  · intro first value taken
    have nothing := taken 0 [] 0
    split at nothing
    · obtain ⟨_, _, numberRead, _⟩ := Read.bind_eq_ok.mp nothing
      cases numberRead
    · obtain ⟨_, _, numberRead, _⟩ := Read.bind_eq_ok.mp nothing
      cases numberRead

end Amount

/-! ## Values without fields of their own -/

namespace Scalar

private theorem exact_readHash (width : Nat) (size : Option Nat) : Exact (readHash width size) := by
  unfold readHash
  split
  · exact Exact.hash width
  · exact Exact.pure _
  · exact (Exact.hash width).ite (Exact.throw _)

private theorem exact_readHashes (width count : Nat) : Exact (readHashes width count) := by
  induction count with
  | zero =>
      exact Exact.pure []
  | succ count inductionHypothesis =>
      exact (Exact.hash width).bind fun hash => inductionHypothesis.bind_pure _

theorem exact_read (size : Option Nat) (kind : ScalarKind) : Exact (read size kind) := by
  cases kind with
  | uint8 =>
      exact (Exact.number 1).bind_pure _
  | uint16 =>
      exact (Exact.number 2).bind_pure _
  | uint32 =>
      exact (Exact.number 4).bind_pure _
  | uint64 =>
      exact (Exact.number 8).bind_pure _
  | hash128 =>
      exact (exact_readHash 16 size).bind_pure _
  | hash160 =>
      exact (exact_readHash 20 size).bind_pure _
  | hash256 =>
      exact (exact_readHash 32 size).bind_pure _
  | amount =>
      exact Amount.exact_read.bind_pure _
  | blob =>
      cases size with
      | none =>
          exact Exact.throw _
      | some size =>
          exact (Exact.octets size).bind_pure _
  | account =>
      exact (exact_readHash 20 size).bind_pure _
  | pathSet =>
      exact PathSet.exact_read.bind_pure _
  | vector256 =>
      cases size with
      | none =>
          exact Exact.throw _
      | some size =>
          exact ((exact_readHashes 32 (size / 32)).bind_pure _).ite (Exact.throw _)
  | named table =>
      exact ((Exact.number table.width).bind_pure _).bind_pure _

end Scalar

end LedgerWire
