import LedgerWire.Proofs.Addresses
import LedgerWire.Proofs.Currencies

/-!
# Texts of accounts

An account may be given by its classic address, by its digits, and by an extended
address on either network, and it is the same account each time. An extended address
with a tag gives none, and besides the empty text there are no others.
-/

namespace LedgerWire.Account

open Address (encodeClassic encodeExtended)

/-- The texts that give an account. The empty text gives the account of zeros. -/
inductive Spells (writing : CheckedText) : String → AccountId → Prop
  | nothing : Spells writing "" (Hash.zero 20)
  | digits (account : AccountId) : Spells writing account.toHex account
  | untagged (account : AccountId) (test : Bool) :
      Spells writing (encodeExtended writing ⟨account, none, test⟩) account
  | classic (account : AccountId) : Spells writing (encodeClassic writing account) account

/-! ## Reading each form -/

private theorem isEmpty_of_length {text : String} {count : Nat} (size : text.length = count + 1) :
    text.isEmpty = false := by
  rw [← Bool.not_eq_true, String.isEmpty_iff]
  rintro rfl
  cases size

theorem parse_toHex (writing : CheckedText) (account : AccountId) :
    parse writing account.toHex = .ok account := by
  have nonempty : account.toHex.isEmpty = false := isEmpty_of_length account.length_toHex
  have upper : Hex.isUpper 40 account.toHex = true :=
    Hex.isUpper_encode (by rw [account.length_bytes])
  rw [parse, nonempty, upper]
  exact account.ofHex_toHex

section

variable {writing : CheckedText} (distinctive : writing.Distinctive)

include distinctive

/-- An extended address is longer than the digits, so it is not taken for them. -/
theorem parse_encodeExtended (address : ExtendedAddress) :
    parse writing (encodeExtended writing address) =
      match address.tag with
      | some _ => .error (.unexpectedTag (encodeExtended writing address))
      | none => .ok address.account := by
  have size := distinctive.length_extended address
  have nonempty : (encodeExtended writing address).isEmpty = false := isEmpty_of_length size
  have longer : Hex.isUpper 40 (encodeExtended writing address) = false := by
    simp only [Hex.isUpper, String.length_toList, size]
    rfl
  have found : Address.extended? writing (encodeExtended writing address) = some address :=
    (Address.extended?_eq_some distinctive.toLawful).mpr rfl
  rw [parse, nonempty, longer, found]
  rfl

private theorem parse_of_spells {text : String} {account : AccountId}
    (spelled : Spells writing text account) : parse writing text = .ok account := by
  cases spelled with
  | nothing =>
      rfl
  | digits =>
      exact parse_toHex writing account
  | untagged _ test =>
      exact parse_encodeExtended distinctive ⟨account, none, test⟩
  | classic =>
      exact parse_encodeClassic distinctive account

/-! ## Every text that is read -/

theorem parse_eq_ok {text : String} {account : AccountId} :
    parse writing text = .ok account ↔ Spells writing text account := by
  refine ⟨fun read => ?_, parse_of_spells distinctive⟩
  unfold parse at read
  split at read
  · rename_i empty
    cases read
    rw [String.isEmpty_iff.mp empty]
    exact .nothing
  · split at read
    · rename_i upper
      rw [← Hex.upper_of_isUpper upper, ← Hash.toHex_of_ofHex read]
      exact .digits account
    · split at read
      · rename_i address found
        rw [(Address.extended?_eq_some distinctive.toLawful).mp found]
        obtain ⟨other, tag, test⟩ := address
        cases tag with
        | some tag =>
            cases read
        | none =>
            cases read
            exact .untagged other test
      · rw [Outcome.mapError_eq_ok, Address.decodeClassic_eq_ok distinctive.toLawful] at read
        rw [read]
        exact .classic account

/-- Only an extended address with a tag is refused for its tag. -/
theorem parse_eq_unexpectedTag {text subject : String} :
    parse writing text = .error (.unexpectedTag subject) ↔
      subject = text ∧ ∃ account tag test,
        text = encodeExtended writing ⟨account, some tag, test⟩ := by
  constructor
  · intro refused
    unfold parse at refused
    split at refused
    · cases refused
    · split at refused
      · unfold Hash.ofHex at refused
        grind
      · split at refused
        · rename_i address found
          have written := (Address.extended?_eq_some distinctive.toLawful).mp found
          obtain ⟨account, tag, test⟩ := address
          cases tag with
          | none =>
              cases refused
          | some tag =>
              cases refused
              exact ⟨rfl, account, tag, test, written⟩
        · cases classic : Address.decodeClassic writing text with
          | ok account =>
              rw [classic] at refused
              cases refused
          | error fault =>
              rw [classic] at refused
              cases refused
  · rintro ⟨rfl, account, tag, test, rfl⟩
    exact parse_encodeExtended distinctive ⟨account, some tag, test⟩

end

/-! ## The ledger's own writing -/

/-- Every spelling of an account is read as this account, an extended address with a tag is
refused for the tag, as no other text is, and a text that is read is a spelling of the
account that it is read as. -/
theorem spellings_agree :
    (∀ account : AccountId,
      parse .base58 (encodeClassic .base58 account) = .ok account ∧
        parse .base58 account.toHex = .ok account ∧
        ∀ test, parse .base58 (encodeExtended .base58 ⟨account, none, test⟩) = .ok account) ∧
    (∀ text subject, parse .base58 text = .error (.unexpectedTag subject) ↔
      subject = text ∧ ∃ account tag test,
        text = encodeExtended .base58 ⟨account, some tag, test⟩) ∧
    ∀ text account, parse .base58 text = .ok account ↔ Spells .base58 text account := by
  have distinctive := CheckedText.base58_distinctive
  refine ⟨fun account => ⟨?_, ?_, fun test => ?_⟩, fun text subject => ?_, fun text account => ?_⟩
  · exact parse_encodeClassic distinctive account
  · exact parse_toHex .base58 account
  · exact parse_encodeExtended distinctive ⟨account, none, test⟩
  · exact parse_eq_unexpectedTag distinctive
  · exact parse_eq_ok distinctive

end LedgerWire.Account
