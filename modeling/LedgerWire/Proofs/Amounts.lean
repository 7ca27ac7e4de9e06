import LedgerWire.Proofs.Addresses
import LedgerWire.Proofs.Currencies
import LedgerWire.Proofs.Decimals
import LedgerWire.Proofs.NormalForm
import LedgerWire.Proofs.Reading

/-!
# Accounts, currencies and amounts

What a document gives for one of these is shown in normal form, the normal form
gives the same value again, and the octets are read back.
-/

namespace LedgerWire

/-! ## Accounts and currencies -/

namespace Account

variable {writing : CheckedText} {subject : String} {json : Json} {account : AccountId}

theorem ofJson_eq_ok :
    ofJson writing subject json = .ok account ↔
      ∃ text, json = .string text ∧ parse writing text = .ok account := by
  cases json <;> simp [ofJson, Json.asString]

theorem normal_of_ofJson (read : ofJson writing subject json = .ok account) :
    NormalForm.account writing json = toJson writing account := by
  obtain ⟨text, rfl, parsed⟩ := ofJson_eq_ok.mp read
  simp only [NormalForm.account, parsed]

theorem ofJson_toJson (distinctive : writing.Distinctive) (account : AccountId) :
    ofJson writing subject (toJson writing account) = .ok account :=
  ofJson_eq_ok.mpr ⟨_, rfl, parse_encodeClassic distinctive account⟩

/-- Accounts that are shown alike are the same. -/
theorem eq_of_toJson_eq (distinctive : writing.Distinctive) {left right : AccountId}
    (same : toJson writing left = toJson writing right) : left = right := by
  have read := parse_encodeClassic distinctive left
  rw [Json.string.inj same, parse_encodeClassic distinctive right] at read
  exact (Except.ok.inj read).symm

end Account

namespace Currency

variable {json : Json} {currency : Currency}

theorem ofJson_eq_ok :
    ofJson json = .ok currency ↔ ∃ text, json = .string text ∧ parse text = .ok currency := by
  cases json <;> simp [ofJson, Json.asString]

theorem normal_of_ofJson (read : ofJson json = .ok currency) :
    NormalForm.currency json = currency.toJson := by
  obtain ⟨text, rfl, parsed⟩ := ofJson_eq_ok.mp read
  simp only [NormalForm.currency, parsed]

theorem ofJson_toJson (currency : Currency) : ofJson currency.toJson = .ok currency :=
  ofJson_eq_ok.mpr ⟨_, rfl, parse_toText currency⟩

theorem takes_read (currency : Currency) : Takes read currency.bytes currency :=
  (Takes.hash currency.hash).bind_pure rfl

end Currency

/-! ## Amounts -/

theorem Takes.peek {α : Type} {next : UInt8 → Read α} {first : UInt8} {tail : Bytes} {result : α}
    (taken : Takes (next first) (first :: tail) result) :
    Takes (Read.peek >>= next) (first :: tail) result := by
  intro position rest levels
  have seen : Read.peek ⟨position, first :: tail ++ rest, levels⟩ =
      .ok first ⟨position, first :: tail ++ rest, levels⟩ := rfl
  rw [Read.bind_of_ok seen, taken]

/-- The first of eight octets is the number divided by that of the others. -/
theorem Bytes.ofNat_eight (value : Nat) :
    ∃ tail, Bytes.ofNat 8 value = UInt8.ofNat (value / 256 ^ 7) :: tail := by
  refine ⟨(Bytes.ofNat 8 value).drop 1, ?_⟩
  simp [Bytes.ofNat, Nat.div_div_eq_div_mul]

namespace Amount

/-! ### Octets -/

theorem takes_read_native {negative : Bool} {drops : Fin (2 ^ 62)} :
    Takes read (native negative drops).bytes (native negative drops) := by
  have bound := drops.isLt
  obtain ⟨sign, signed, isNegative⟩ : ∃ sign, (if negative then 0 else 2 ^ 62) = sign * 2 ^ 62 ∧
      sign < 2 ∧ (sign == 0) = negative := by
    cases negative with
    | true =>
        exact ⟨0, rfl, by decide, rfl⟩
    | false =>
        exact ⟨1, rfl, by decide, rfl⟩
  have written : (native negative drops).bytes = Bytes.ofNat 8 (sign * 2 ^ 62 + drops.val) := by
    rw [bytes, signed]
  obtain ⟨tail, shown⟩ := Bytes.ofNat_eight (sign * 2 ^ 62 + drops.val)
  have low : UInt8.ofNat ((sign * 2 ^ 62 + drops.val) / 256 ^ 7) < 0x80 := by
    rw [UInt8.lt_iff_toNat_lt, UInt8.toNat_ofNat']
    change _ < 128
    omega
  have taken : Takes (Read.number 8) (Bytes.ofNat 8 (sign * 2 ^ 62 + drops.val))
      (sign * 2 ^ 62 + drops.val) :=
    Takes.number (by omega)
  have signRead : (sign * 2 ^ 62 + drops.val) / 2 ^ 62 % 2 = sign := by omega
  have kept : Fin.ofNat (2 ^ 62) (sign * 2 ^ 62 + drops.val) = drops := by
    apply Fin.ext
    simp only [Fin.ofNat]
    omega
  rw [written, shown]
  apply Takes.peek
  rw [if_pos low, ← shown]
  refine taken.bind_pure ?_
  rw [signRead, isNegative.2, kept]

theorem takes_read_issued {value : UInt64} (high : 2 ^ 63 ≤ value.toNat) (currency : Currency)
    (issuer : AccountId) :
    Takes read (issued value currency issuer).bytes (issued value currency issuer) := by
  have bound := value.toNat_lt
  have written : (issued value currency issuer).bytes =
      Bytes.ofNat 8 value.toNat ++ (currency.bytes ++ issuer.bytes) := by
    simp [bytes]
  obtain ⟨tail, shown⟩ := Bytes.ofNat_eight value.toNat
  have large : ¬ UInt8.ofNat (value.toNat / 256 ^ 7) < 0x80 := by
    rw [UInt8.lt_iff_toNat_lt, UInt8.toNat_ofNat']
    change ¬ _ < 128
    omega
  have taken : Takes (Read.number 8) (Bytes.ofNat 8 value.toNat) value.toNat :=
    Takes.number (by omega)
  rw [written, shown, List.cons_append]
  apply Takes.peek
  rw [if_neg large, ← List.cons_append, ← shown]
  refine taken.bind ((Currency.takes_read currency).bind ((Takes.hash issuer).bind_pure ?_))
  rw [UInt64.ofNat_toNat]

/-! ### Documents -/

variable {writing : CheckedText} {json : Json}

theorem valueOfJson_eq_ok {word : UInt64} :
    valueOfJson json = .ok word ↔
      ∃ text, IssuedValue.ofText text = .ok word ∧
        (json = .string text ∨
          ∃ number : Number, json = .number number ∧ text = number.toText) := by
  cases json with
  | string text =>
      simp [valueOfJson]
  | number number =>
      simp [valueOfJson]
  | _ =>
      simp [valueOfJson]

/-- The word of an issued value and the text that shows it. -/
theorem issuedValue_of_valueOfJson {word : UInt64} (read : valueOfJson json = .ok word) :
    NormalForm.issuedValue json = .string (IssuedValue.toDecimal word).toText ∧
      valueOfJson (.string (IssuedValue.toDecimal word).toText) = .ok word ∧
      2 ^ 63 ≤ word.toNat := by
  obtain ⟨text, written, origin⟩ := valueOfJson_eq_ok.mp read
  obtain ⟨parsed, again, high⟩ := IssuedValue.ofText_toText written
  refine ⟨?_, again, high⟩
  rcases origin with rfl | ⟨number, rfl, rfl⟩
  · simp only [NormalForm.issuedValue, NormalForm.decimalText, parsed]
  · simp only [NormalForm.issuedValue, NormalForm.decimalText, parsed]

theorem ofDrops_eq_ok {text : String} {amount : Amount} :
    ofDrops text = .ok amount ↔
      ∃ drops, Text.whole? text.toList = some drops ∧ drops ≤ greatestDrops ∧
        amount = native false (Fin.ofNat _ drops) := by
  unfold ofDrops
  cases Text.whole? text.toList with
  | none =>
      simp
  | some drops =>
      by_cases fits : drops ≤ greatestDrops
      · simp [fits, eq_comm]
      · simp [fits]

theorem ofEntries_eq_ok {entries : List (String × Json)} {amount : Amount} :
    ofEntries writing entries = .ok amount ↔
      ∃ code issuer value word currency account,
        entries = [("currency", code), ("issuer", issuer), ("value", value)] ∧
        valueOfJson value = .ok word ∧ Currency.ofJson code = .ok currency ∧
        Account.ofJson writing "issuer" issuer = .ok account ∧
        amount = issued word currency account := by
  unfold ofEntries
  split
  · rename_i code issuer value
    simp only [Outcome.bind_eq_ok, Outcome.pure_eq_ok, Except.ok.injEq]
    constructor
    · rintro ⟨word, first, currency, second, account, third, rfl⟩
      exact ⟨code, issuer, value, word, currency, account, rfl, first, second, third, rfl⟩
    · rintro ⟨_, _, _, word, currency, account, same, first, second, third, rfl⟩
      cases same
      exact ⟨word, first, currency, second, account, third, rfl⟩
  · rename_i other
    constructor
    · intro impossible
      cases impossible
    · rintro ⟨code, issuer, value, _, _, _, rfl, _⟩
      exact absurd rfl (other code issuer value)

/-- What a document gives for an amount. -/
structure Faithful (writing : CheckedText) (json : Json) (amount : Amount) : Prop where
  shown : amount.toJson writing = NormalForm.amount writing json
  again : ofJson writing (amount.toJson writing) = .ok amount
  taken : Takes read amount.bytes amount

private theorem faithful_native {text : String} {amount : Amount}
    (read : ofDrops text = .ok amount) : Faithful writing (.string text) amount := by
  obtain ⟨drops, spelled, small, rfl⟩ := ofDrops_eq_ok.mp read
  have kept : (Fin.ofNat (2 ^ 62) drops).val = drops := by
    unfold greatestDrops at small
    exact Nat.mod_eq_of_lt (by omega)
  have shown : (native false (Fin.ofNat _ drops)).toJson writing = .string (toString drops) := by
    simp only [toJson, kept, Bool.false_eq_true, if_false, String.empty_append]
  refine ⟨?_, ?_, takes_read_native⟩
  · rw [shown, NormalForm.amount, Text.toString_of_whole? spelled]
  · rw [shown, ofJson]
    exact ofDrops_eq_ok.mpr ⟨drops, Text.whole?_toString drops, small, rfl⟩

private theorem faithful_issued (distinctive : writing.Distinctive) {entries : List (String × Json)}
    {amount : Amount} (read : ofEntries writing entries = .ok amount) :
    Faithful writing (.object entries) amount := by
  obtain ⟨code, issuer, value, word, currency, account, rfl, valueRead, codeRead, issuerRead,
    rfl⟩ := ofEntries_eq_ok.mp read
  obtain ⟨valueShown, valueAgain, high⟩ := issuedValue_of_valueOfJson valueRead
  refine ⟨?_, ?_, takes_read_issued high currency account⟩
  · rw [NormalForm.amount, valueShown, Currency.normal_of_ofJson codeRead,
      Account.normal_of_ofJson issuerRead, toJson]
  · rw [toJson, ofJson]
    exact ofEntries_eq_ok.mpr ⟨_, _, _, word, currency, account, rfl, valueAgain,
      Currency.ofJson_toJson currency, Account.ofJson_toJson distinctive account, rfl⟩

theorem faithful (distinctive : writing.Distinctive) {amount : Amount}
    (read : ofJson writing json = .ok amount) : Faithful writing json amount := by
  unfold ofJson at read
  split at read
  · exact faithful_native read
  · exact faithful_issued distinctive read
  · cases read

end Amount

end LedgerWire
