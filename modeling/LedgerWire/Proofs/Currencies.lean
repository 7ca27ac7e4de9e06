import LedgerWire.Proofs.HexDigits
import LedgerWire.Value.Currency

/-!
# Currency codes

A currency is read back from the code it is shown by, whichever of the three
forms the code has. Other codes spell it too: a standard code need not consist of
the octets that are shown, and any currency has its digits.
-/

namespace LedgerWire

theorem Hex.isUpper_encode {count : Nat} {bytes : Bytes} (size : 2 * bytes.length = count) :
    isUpper count (encode bytes) = true := by
  have upper : ∀ value < 16, (digit value).isDigit = true ∨
      ('A' ≤ digit value ∧ digit value ≤ 'F') := by
    decide
  simp only [isUpper, String.length_toList, length_encode, size, beq_self_eq_true, Bool.true_and,
    List.all_eq_true]
  intro c member
  rw [encode_eq_halves, String.toList_ofList] at member
  obtain ⟨value, present, rfl⟩ := List.mem_map.mp member
  simpa using upper value (halves_lt bytes value present)

theorem Hex.upper_of_isUpper {count : Nat} {text : String} (upper : isUpper count text = true) :
    Text.upper text = text := by
  have table : ∀ code < 128,
      ((Char.ofNat code).isDigit || ('A' ≤ Char.ofNat code && Char.ofNat code ≤ 'F')) = true →
        (Char.ofNat code).toUpper = Char.ofNat code := by
    decide
  have kept : ∀ c ∈ text.toList, c.toUpper = c := by
    intro c member
    simp only [isUpper, Bool.and_eq_true, List.all_eq_true] at upper
    have given := upper.2 c member
    have ascii : c.toNat < 128 := by
      simp only [Char.isDigit, Bool.or_eq_true, Bool.and_eq_true, decide_eq_true_eq, Char.le_def,
        UInt32.le_iff_toNat_le] at given
      rcases given with ⟨_, bound⟩ | ⟨_, bound⟩
      · exact Nat.lt_of_le_of_lt bound (by decide)
      · exact Nat.lt_of_le_of_lt bound (by decide)
    simpa using table c.toNat ascii (by simpa using given)
  rw [Text.upper, List.map_congr_left kept, List.map_id', String.ofList_toList]

theorem Hash.ofBytes_eq_ok {width : Nat} {bytes : Bytes} {hash : Hash width} :
    Hash.ofBytes width bytes = .ok hash ↔ hash.bytes = bytes := by
  constructor
  · intro made
    cases found : Hash.ofBytes? width bytes with
    | none =>
        simp [Hash.ofBytes, found] at made
    | some other =>
        simp only [Hash.ofBytes, found, Except.ok.injEq] at made
        rw [← made, bytes_of_ofBytes? found]
  · rintro rfl
    simp [Hash.ofBytes]

namespace Currency

/-! ## All that is read -/

/-- The codes that spell a currency: the native code, other three octets in the place of a
standard code, and all the digits. -/
inductive Spells : String → Currency → Prop
  | native : Spells nativeCode native
  | letters {code : String} {currency : Currency} (other : code ≠ nativeCode)
      (standard : currency.bytes =
        List.replicate 12 0 ++ Bytes.ofText code ++ List.replicate 5 0) : Spells code currency
  | digits (currency : Currency) : Spells currency.hash.toHex currency

theorem ofLetters_eq_ok {letters : Bytes} {currency : Currency} :
    ofLetters letters = .ok currency ↔
      currency.bytes = List.replicate 12 0 ++ letters ++ List.replicate 5 0 := by
  rw [ofLetters, Outcome.bind_pure_eq_ok]
  constructor
  · rintro ⟨hash, made, rfl⟩
    exact Hash.ofBytes_eq_ok.mp made
  · intro standard
    exact ⟨currency.hash, Hash.ofBytes_eq_ok.mpr standard, rfl⟩

theorem parse_toHex (hash : Hash 20) : parse hash.toHex = .ok ⟨hash⟩ := by
  have size : hash.toHex.utf8ByteSize = 40 := by
    rw [Hash.toHex, (Hex.spells_encode hash.bytes).utf8ByteSize, Hex.length_halves,
      hash.length_bytes]
  have other : hash.toHex ≠ nativeCode := by
    intro same
    rw [same] at size
    exact absurd size (by decide)
  have upper : Hex.isUpper 40 hash.toHex = true :=
    Hex.isUpper_encode (by rw [hash.length_bytes])
  rw [parse, if_neg other, if_neg (by omega), if_pos upper]
  simp

theorem parse_eq_ok {code : String} {currency : Currency} :
    parse code = .ok currency ↔ Spells code currency := by
  constructor
  · intro read
    unfold parse at read
    split at read
    · rename_i isNative
      cases read
      exact isNative ▸ .native
    · rename_i other
      split at read
      · exact .letters other (ofLetters_eq_ok.mp read)
      · split at read
        · rename_i upper
          obtain ⟨hash, digits, rfl⟩ := Outcome.bind_pure_eq_ok.mp read
          rw [← Hex.upper_of_isUpper upper, ← Hash.toHex_of_ofHex digits]
          exact .digits ⟨hash⟩
        · cases read
  · intro spelled
    cases spelled with
    | native =>
        rfl
    | letters other standard =>
        have three : code.utf8ByteSize = 3 := by
          have size := congrArg List.length standard
          rw [bytes, currency.hash.length_bytes] at size
          simp only [List.length_append, List.length_replicate, Bytes.length_ofText] at size
          omega
        rw [parse, if_neg other, if_pos three]
        exact ofLetters_eq_ok.mpr standard
    | digits =>
        exact parse_toHex currency.hash

/-! ## What is shown -/

private theorem toNat_lt_of_isCodeByte {byte : UInt8} (isCode : isCodeByte byte = true) :
    byte.toNat < 128 := by
  have checked : ∀ value < 256, isCodeByte (UInt8.ofNat value) = true → value < 128 := by
    decide +kernel
  have bound := checked byte.toNat byte.toNat_lt
  rw [UInt8.ofNat_toNat] at bound
  exact bound isCode

private theorem ofText_lettersText {letters : Bytes} (ascii : ∀ byte ∈ letters, byte.toNat < 128) :
    Bytes.ofText (lettersText letters) = letters := by
  have narrow : ∀ code < 128, (Char.ofNat code).toNat = code := by
    decide
  have shown : ∀ byte ∈ letters, (Char.ofNat byte.toNat).toNat = byte.toNat :=
    fun byte member => narrow byte.toNat (ascii byte member)
  rw [Bytes.ofText_of_ascii, lettersText, String.toList_ofList, List.map_map]
  · refine (List.map_congr_left fun byte member => ?_).trans (List.map_id letters)
    simp [shown byte member]
  · intro c member
    rw [lettersText, String.toList_ofList] at member
    obtain ⟨byte, present, rfl⟩ := List.mem_map.mp member
    rw [shown byte present]
    exact ascii byte present

/-- A standard currency is its letters with zeros around them. -/
theorem bytes_of_isStandard {currency : Currency} (standard : currency.isStandard = true) :
    currency.bytes = List.replicate 12 0 ++ currency.letters ++ List.replicate 5 0 := by
  have size : currency.bytes.length = 20 := currency.hash.length_bytes
  simp only [isStandard, Bool.and_eq_true, List.all_eq_true, beq_iff_eq] at standard
  have front : currency.bytes.take 12 = List.replicate 12 0 :=
    List.eq_replicate_iff.mpr ⟨by simp [size], standard.1⟩
  have back : currency.bytes.drop 15 = List.replicate 5 0 :=
    List.eq_replicate_iff.mpr ⟨by simp [size], standard.2⟩
  have parts : currency.bytes = currency.bytes.take 12 ++
      ((currency.bytes.drop 12).take 3 ++ currency.bytes.drop 15) := by
    rw [← List.drop_drop (i := 3) (j := 12), List.take_append_drop, List.take_append_drop]
  rw [letters, List.append_assoc, ← front, ← back]
  exact parts

private theorem eq_native_of_isNative {currency : Currency} (isNative : currency.isNative = true) :
    currency = native := by
  obtain ⟨hash⟩ := currency
  simp only [Currency.isNative, Hash.isZero, List.all_eq_true, beq_iff_eq] at isNative
  have zeros : hash.bytes = List.replicate 20 0 :=
    List.eq_replicate_iff.mpr ⟨hash.length_bytes, isNative⟩
  rw [native, Currency.mk.injEq]
  exact Hash.ext zeros

private theorem spells_toText (currency : Currency) : Spells currency.toText currency := by
  unfold toText isoCode?
  by_cases isNative : currency.isNative = true
  · rw [if_pos isNative, eq_native_of_isNative isNative]
    exact .native
  · rw [if_neg isNative]
    split
    · rename_i shown
      obtain ⟨standard, codes, other⟩ := shown
      refine .letters other ?_
      have ascii : ∀ byte ∈ currency.letters, byte.toNat < 128 := fun byte member =>
        toNat_lt_of_isCodeByte (List.all_eq_true.mp codes byte member)
      rw [Option.getD_some, ofText_lettersText ascii]
      exact bytes_of_isStandard standard
    · exact .digits currency

theorem parse_toText (currency : Currency) : parse currency.toText = .ok currency :=
  parse_eq_ok.mpr (spells_toText currency)

/-- Every currency is read back from the code that it is shown by, so that no two are shown
alike, and showing what a code was read as changes nothing, whichever of its codes that
was. -/
theorem codes_read_back :
    (∀ currency, parse currency.toText = .ok currency) ∧
    (∀ one other : Currency, one.toText = other.toText → one = other) ∧
    (∀ code currency, parse code = .ok currency → parse currency.toText = parse code) ∧
    ∀ code currency, parse code = .ok currency ↔ Spells code currency := by
  refine ⟨parse_toText, ?_, ?_, fun code currency => parse_eq_ok⟩
  · intro one other same
    have read := parse_toText one
    rw [same, parse_toText other] at read
    exact (Except.ok.inj read).symm
  · intro code currency read
    rw [read, parse_toText]

/-- The currency with three colons in the place of a standard code. -/
def colons : Currency := ⟨⟨List.replicate 12 0 ++ [58, 58, 58] ++ List.replicate 5 0, rfl⟩⟩

/-- Colons are read, and shown as digits. -/
theorem codes_read_back_colons :
    parse ":::" = .ok colons ∧ Spells ":::" colons ∧
      colons.toText = "0000000000000000000000003A3A3A0000000000" ∧
      parse colons.toText = parse ":::" := by
  have read : parse ":::" = .ok colons := by
    rfl
  obtain ⟨_, _, again, spelled⟩ := codes_read_back
  exact ⟨read, (spelled _ _).mp read, by decide, again _ _ read⟩

end Currency

end LedgerWire
