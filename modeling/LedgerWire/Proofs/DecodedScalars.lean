import LedgerWire.Proofs.Consumption
import LedgerWire.Proofs.Scalars

/-!
# Scalars that were decoded

A scalar that was read from octets is taken from the document that shows it, and
it is shown the same again, unless its octets hold more than a document may give.
-/

namespace LedgerWire

variable {context : Context}

namespace Scalar

/-- What can be read for a value of a kind. -/
inductive Legible : ScalarKind → Scalar → Prop
  | uint8 (value : UInt8) : Legible .uint8 (.uint8 value)
  | uint16 (value : UInt16) : Legible .uint16 (.uint16 value)
  | uint32 (value : UInt32) : Legible .uint32 (.uint32 value)
  | uint64 (value : UInt64) : Legible .uint64 (.uint64 value)
  | hash128 (value : Hash 16) : Legible .hash128 (.hash128 value)
  | hash160 (value : Hash 20) : Legible .hash160 (.hash160 value)
  | hash256 (value : Hash 32) : Legible .hash256 (.hash256 value)
  | amount (value : Amount) : Legible .amount (.amount value)
  | blob (octets : Bytes) : Legible .blob (.blob octets)
  | account (value : AccountId) : Legible .account (.account value)
  | pathSet {set : PathSet} (settled : set.settled = set)
      (stepped : ∀ path ∈ set.paths, ∀ hop ∈ path, hop.hasPart = true) :
      Legible .pathSet (.pathSet set)
  | vector256 (items : List (Hash 32)) : Legible .vector256 (.vector256 items)
  | named {table : EnumKind} {code : Nat} (bound : code < 256 ^ table.width) :
      Legible (.named table) (.named ⟨table, code⟩)

theorem legible_of_read {size : Option Nat} {kind : ScalarKind} {value : Scalar}
    {before after : Cursor} (succeeded : read size kind before = .ok value after) :
    Legible kind value := by
  cases kind with
  | pathSet =>
      obtain ⟨set, _, taken, last⟩ := Read.bind_eq_ok.mp succeeded
      obtain ⟨rfl, _⟩ := Read.pure_eq_ok.mp last
      obtain ⟨_, settled, stepped⟩ := PathSet.read_eq_ok taken
      exact Legible.pathSet settled stepped
  | named table =>
      obtain ⟨code, _, taken, last⟩ := Read.bind_eq_ok.mp succeeded
      obtain ⟨rfl, _⟩ := Read.pure_eq_ok.mp last
      obtain ⟨number, _, numberRead, same⟩ := Read.bind_eq_ok.mp taken
      obtain ⟨rfl, _⟩ := Read.pure_eq_ok.mp same
      exact Legible.named (Read.number_eq_ok numberRead).2
  | blob =>
      cases size with
      | none =>
          cases succeeded
      | some size =>
          obtain ⟨octets, _, _, last⟩ := Read.bind_eq_ok.mp succeeded
          obtain ⟨rfl, _⟩ := Read.pure_eq_ok.mp last
          exact Legible.blob octets
  | vector256 =>
      cases size with
      | none =>
          cases succeeded
      | some size =>
          by_cases whole : size % 32 = 0
          · simp only [read, if_pos whole] at succeeded
            obtain ⟨items, _, _, last⟩ := Read.bind_eq_ok.mp succeeded
            obtain ⟨rfl, _⟩ := Read.pure_eq_ok.mp last
            exact Legible.vector256 items
          · simp only [read, if_neg whole] at succeeded
            cases succeeded
  | _ =>
      obtain ⟨held, _, _, last⟩ := Read.bind_eq_ok.mp succeeded
      obtain ⟨rfl, _⟩ := Read.pure_eq_ok.mp last
      constructor

/-! ## What a document may give -/

/-- Whether the word of an issued amount holds a number: it has at most 16 digits,
and its exponent, told for a mantissa of 16 digits, is within the limits. -/
def fitsIssued (number : Decimal) : Bool :=
  number.isZero || (number.precision ≤ 16 &&
    IssuedValue.leastExponent ≤ number.exponent - 15 &&
    number.exponent - 15 ≤ IssuedValue.greatestExponent)

/-- Whether a length can be written for the octets of what is shown, if it needs one. -/
def measured : ScalarKind → Json → Bool
  | .blob, .string text => text.length ≤ 2 * Length.greatest
  | .vector256, .array items => 32 * items.length ≤ Length.greatest
  | _, _ => true

end Scalar

/-- Whether an amount that is shown may be given: a native one is a number of drops up
to the greatest, and the number of an issued one is held by a word. -/
def Amount.givable : Json → Bool
  | .string text => (Text.whole? text.toList).any fun drops => drops ≤ greatestDrops
  | value =>
      ((value.get? "value").bind Json.string?).all fun text =>
        (Decimal.parse text).toOption.all Scalar.fitsIssued

/-! ## Amounts -/

namespace IssuedValue

theorem ofDecimal?_of_fits {number : Decimal} (fits : Scalar.fitsIssued number = true) :
    ∃ bits, ofDecimal? number = some bits := by
  unfold ofDecimal?
  by_cases isZero : number.isZero = true
  · rw [if_pos isZero]
    exact ⟨_, rfl⟩
  · rw [if_neg isZero]
    simp only [Scalar.fitsIssued, isZero, Bool.false_or, Bool.and_eq_true, decide_eq_true_iff]
      at fits
    obtain ⟨⟨few, low⟩, high⟩ := fits
    have ranged : Decimal.inRange (number.exponent - 15) = true := by
      unfold leastExponent at low
      unfold greatestExponent at high
      simp only [Decimal.inRange, Bool.and_eq_true, decide_eq_true_iff]
      omega
    simp only [Decimal.mantissa16?, if_pos (And.intro few ranged), if_pos (And.intro low high)]
    exact ⟨_, rfl⟩

theorem fits_of_ofDecimal? {number : Decimal} {bits : UInt64}
    (written : ofDecimal? number = some bits) : Scalar.fitsIssued number = true := by
  unfold ofDecimal? at written
  unfold Scalar.fitsIssued
  by_cases isZero : number.isZero = true
  · rw [isZero, Bool.true_or]
  · rw [if_neg isZero] at written
    unfold Decimal.mantissa16? at written
    by_cases few : number.precision ≤ 16 ∧ Decimal.inRange (number.exponent - 15) = true
    · simp only [if_pos few] at written
      split at written
      · rename_i limits
        simp [few.1, limits.1, limits.2]
      · cases written
    · simp only [if_neg few] at written
      cases written

theorem reduced_toDecimal (word : UInt64) : (toDecimal word).Reduced :=
  Decimal.ofDigits_reduced _ _ _

private theorem inRange_toDecimal (word : UInt64) :
    Decimal.inRange (toDecimal word).exponent = true := by
  unfold toDecimal bias
  apply Decimal.inRange_ofParts
  · omega
  · omega
  · omega

theorem parse_toDecimal (word : UInt64) :
    Decimal.parse (toDecimal word).toText = .ok (toDecimal word) :=
  Decimal.parse_toText (reduced_toDecimal word) (inRange_toDecimal word)

/-- The text of a word whose number is held by one is read as the word that is written
for the number. -/
theorem ofText_of_fits {word : UInt64} (fits : Scalar.fitsIssued (toDecimal word) = true) :
    ∃ bits, ofText (toDecimal word).toText = .ok bits ∧ toDecimal bits = toDecimal word := by
  obtain ⟨bits, written⟩ := ofDecimal?_of_fits fits
  refine ⟨bits, ofText_eq_ok.mpr ⟨_, parse_toDecimal word, written⟩, ?_⟩
  exact (toDecimal_of_ofDecimal? (reduced_toDecimal word) written).1

end IssuedValue

namespace Amount

variable {writing : CheckedText}

/-- A native amount that may be written is not negative, and it is taken as it is. -/
theorem ofJson_toJson_native {negative : Bool} {drops : Fin (2 ^ 62)}
    (fits : givable ((native negative drops).toJson writing) = true) :
    ofJson writing ((native negative drops).toJson writing) = .ok (native negative drops) := by
  cases negative with
  | true =>
      have minus : ("-" ++ toString drops.val).toList = '-' :: (toString drops.val).toList := by
        rw [String.toList_append]
        rfl
      have none : Text.whole? ("-" ++ toString drops.val).toList = none := by
        rw [minus]
        rfl
      simp only [toJson, if_true, givable, none] at fits
      cases fits
  | false =>
      have shown : (native false drops).toJson writing = .string (toString drops.val) := by
        simp only [toJson, Bool.false_eq_true, if_false, String.empty_append]
      have spelled := Text.whole?_toString drops.val
      rw [shown, givable, spelled, Option.any_some, decide_eq_true_iff] at fits
      rw [shown, ofJson]
      refine ofDrops_eq_ok.mpr ⟨drops.val, spelled, fits, ?_⟩
      rw [Fin.ofNat_val_eq_self]

private theorem ofJson_toJson_issued (distinctive : writing.Distinctive) {word : UInt64}
    {currency : Currency} {issuer : AccountId}
    (fits : givable ((issued word currency issuer).toJson writing) = true) :
    ∃ again, ofJson writing ((issued word currency issuer).toJson writing) = .ok again ∧
      again.toJson writing = (issued word currency issuer).toJson writing := by
  have number : Scalar.fitsIssued (IssuedValue.toDecimal word) = true := by
    have parsed := IssuedValue.parse_toDecimal word
    simpa [toJson, givable, Json.get?, Json.string?, List.lookup_cons, parsed,
      Except.toOption] using fits
  obtain ⟨bits, read, same⟩ := IssuedValue.ofText_of_fits number
  refine ⟨issued bits currency issuer, ?_, ?_⟩
  · rw [toJson, ofJson]
    exact ofEntries_eq_ok.mpr ⟨_, _, _, bits, currency, issuer, rfl,
      valueOfJson_eq_ok.mpr ⟨_, read, .inl rfl⟩, Currency.ofJson_toJson currency,
      Account.ofJson_toJson distinctive issuer, rfl⟩
  · rw [toJson, toJson, same]

private theorem ofJson_of_givable (distinctive : writing.Distinctive) {amount : Amount}
    (fits : givable (amount.toJson writing) = true) :
    ∃ again, ofJson writing (amount.toJson writing) = .ok again ∧
      again.toJson writing = amount.toJson writing := by
  cases amount with
  | native negative drops =>
      exact ⟨_, ofJson_toJson_native fits, rfl⟩
  | issued word currency issuer =>
      exact ofJson_toJson_issued distinctive fits

/-- An amount that is taken from how it is shown may be given. -/
theorem givable_of_ofJson {amount again : Amount}
    (taken : ofJson writing (amount.toJson writing) = .ok again) :
    givable (amount.toJson writing) = true := by
  cases amount with
  | native negative drops =>
      rw [toJson, ofJson] at taken
      obtain ⟨given, spelled, small, _⟩ := ofDrops_eq_ok.mp taken
      rw [toJson, givable, spelled, Option.any_some, decide_eq_true_iff]
      exact small
  | issued word currency issuer =>
      rw [toJson, ofJson] at taken
      obtain ⟨_, _, _, bits, _, _, same, valueRead, _⟩ := ofEntries_eq_ok.mp taken
      cases same
      obtain ⟨text, written, shown | ⟨number, shown, _⟩⟩ := valueOfJson_eq_ok.mp valueRead
      · cases shown
        obtain ⟨number, parsed, fitting⟩ := IssuedValue.ofText_eq_ok.mp written
        simp [toJson, givable, Json.get?, Json.string?, List.lookup_cons, parsed, Except.toOption,
          IssuedValue.fits_of_ofDecimal? fitting]
      · cases shown

end Amount

/-! ## Paths -/

namespace PathSet

variable {writing : CheckedText}

theorem ofJson_toJson (distinctive : writing.Distinctive) (set : PathSet) :
    ofJson writing (set.toJson writing) = .ok set := by
  apply ofJson_eq_ok.mpr
  refine ⟨_, rfl, Outcome.mapM_map_eq_ok fun path _ => ?_⟩
  apply pathOfJson_eq_ok.mpr
  exact ⟨_, rfl, Outcome.mapM_map_eq_ok fun hop _ => hopOfJson_toJson distinctive hop⟩

theorem hasSteps_toJson (distinctive : writing.Distinctive) {set : PathSet}
    (stepped : ∀ path ∈ set.paths, ∀ hop ∈ path, hop.hasPart = true) :
    hasSteps (set.toJson writing) = true := by
  apply List.all_eq_true.mpr
  intro shown member
  obtain ⟨path, pathMember, rfl⟩ := List.mem_map.mp member
  apply List.all_eq_true.mpr
  intro shownHop hopMember
  obtain ⟨hop, present, rfl⟩ := List.mem_map.mp hopMember
  rw [← hasPart_of_hopOfJson (hopOfJson_toJson distinctive hop)]
  exact stepped path pathMember hop present

end PathSet

/-! ## All kinds -/

private theorem EnumCode.ofJson_of_name? {registry : Registry} (named : registry.Named)
    {table : EnumKind} {code : Nat} (bound : code < 256 ^ table.width) {name : String}
    (known : (registry.table table).name? code = some name) :
    ofJson registry table (.string name) = .ok ⟨table, code⟩ := by
  have within : (0 : Int) ≤ code ∧ (code : Int) < 256 ^ table.width := by
    constructor
    · omega
    · exact_mod_cast bound
  simp only [ofJson, codeOfJson, named.code_of_name known, Outcome.ok_bind, ofCode, known,
    Option.isNone_some, Bool.false_eq_true, if_false, if_pos within, Int.toNat_natCast]

private theorem Unsigned.ofHexJson_shown (value : UInt64) :
    ofHexJson (.string (Hex.encode (Bytes.ofNat 8 value.toNat))) = .ok value.toNat := by
  have given : ofHexJson (.number (.whole value.toNat)) = .ok value.toNat := rfl
  rw [(wide_of_ofHexJson given).2, Nat.mod_eq_of_lt value.toNat_lt]

namespace Scalar

private theorem hashOfJson_hashToJson {width : Nat} (hash : Hash width) :
    hashOfJson width (hashToJson hash) = .ok hash := by
  apply hashOfJson_eq_ok.mpr
  unfold hashToJson
  by_cases short : width = 16 ∧ hash.isZero = true
  · rw [if_pos short]
    exact ⟨_, rfl, .inl ⟨short.1, rfl, Hash.eq_zero_of_isZero short.2⟩⟩
  · rw [if_neg short]
    refine ⟨_, rfl, .inr ⟨?_, hash.ofHex_toHex⟩⟩
    rintro ⟨wide, none⟩
    have size := hash.length_toHex
    rw [none, wide] at size
    cases size

private theorem vectorOfJson_shown (items : List (Hash 32)) :
    vectorOfJson (.array (items.map fun item => .string item.toHex)) = .ok items := by
  apply vectorOfJson_eq_ok.mpr
  refine ⟨_, rfl, ?_⟩
  rw [List.forall₂_map_left_iff, List.forall₂_same]
  exact fun item _ => ⟨item.toHex, rfl, item.ofHex_toHex⟩

/-- What is shown is taken for a value that is shown the same, whose octets a length
can be written for if they need one. -/
structure TakenAgain (context : Context) (kind : ScalarKind) (shown : Json) (again : Scalar) :
    Prop where
  taken : ofJson context shown kind = .ok again
  same : again.settled.toJson context = .ok shown
  sized : kind.sized = true → again.bytes.length ≤ Length.greatest

private theorem takenAgain_narrow {typeName : String} {width value : Nat} {kind : ScalarKind}
    (hold : Nat → Scalar) (bound : value < 256 ^ width)
    (given : ∀ json, ofJson context json kind =
      Unsigned.ofJson typeName width json >>= fun value => pure (hold value))
    (same : (hold value).settled.toJson context = .ok (Json.ofNat value))
    (unsized : kind.sized = false) :
    TakenAgain context kind (Json.ofNat value) (hold value) where
  taken := by
    rw [given]
    exact Outcome.bind_pure_eq_ok.mpr ⟨value, Unsigned.ofJson_eq_ok.mpr ⟨rfl, bound⟩, rfl⟩
  same := same
  sized sized := absurd (unsized.symm.trans sized) Bool.false_ne_true

private theorem takenAgain_uint64 (value : UInt64) :
    TakenAgain context .uint64 (.string (Hex.encode (Bytes.ofNat 8 value.toNat)))
      (.uint64 value) where
  taken := by
    refine Outcome.bind_pure_eq_ok.mpr ⟨value.toNat, ?_, ?_⟩
    · exact Unsigned.ofHexJson_shown value
    · rw [UInt64.ofNat_toNat]
  same := rfl
  sized := Bool.noConfusion

private theorem takenAgain_hash {width : Nat} {kind : ScalarKind} {hold : Hash width → Scalar}
    (hash : Hash width)
    (given : ∀ json, ofJson context json kind =
      hashOfJson width json >>= fun hash => pure (hold hash))
    (same : (hold hash).settled.toJson context = .ok (hashToJson hash))
    (unsized : kind.sized = false) :
    TakenAgain context kind (hashToJson hash) (hold hash) where
  taken := by
    rw [given]
    exact Outcome.bind_pure_eq_ok.mpr ⟨hash, hashOfJson_hashToJson hash, rfl⟩
  same := same
  sized sized := absurd (unsized.symm.trans sized) Bool.false_ne_true

private theorem takenAgain_amount (distinctive : context.addresses.Distinctive) {value : Amount}
    (fits : Amount.givable (value.toJson context.addresses) = true) :
    ∃ again, TakenAgain context .amount (value.toJson context.addresses) again := by
  obtain ⟨again, taken, same⟩ := Amount.ofJson_of_givable distinctive fits
  exact ⟨.amount again,
    { taken := Outcome.bind_pure_eq_ok.mpr ⟨again, taken, rfl⟩
      same := congrArg Except.ok same
      sized := Bool.noConfusion }⟩

private theorem takenAgain_blob {octets : Bytes}
    (lengths : measured .blob (.string (Hex.encode octets)) = true) :
    TakenAgain context .blob (.string (Hex.encode octets)) (.blob octets) where
  taken := by
    refine Outcome.bind_pure_eq_ok.mpr ⟨octets, ?_, rfl⟩
    exact blobOfJson_eq_ok.mpr ⟨_, rfl, Hex.decode_encode octets⟩
  same := rfl
  sized := by
    intro _
    rw [measured, decide_eq_true_iff, Hex.length_encode] at lengths
    rw [bytes]
    omega

private theorem takenAgain_account (distinctive : context.addresses.Distinctive)
    (value : AccountId) :
    TakenAgain context .account (Account.toJson context.addresses value) (.account value) where
  taken := Outcome.bind_pure_eq_ok.mpr ⟨value, Account.ofJson_toJson distinctive value, rfl⟩
  same := rfl
  sized := by
    intro _
    rw [bytes, value.length_bytes]
    decide

private theorem takenAgain_pathSet (distinctive : context.addresses.Distinctive) {set : PathSet}
    (settled : set.settled = set) :
    TakenAgain context .pathSet (set.toJson context.addresses) (.pathSet set) where
  taken := Outcome.bind_pure_eq_ok.mpr ⟨set, PathSet.ofJson_toJson distinctive set, rfl⟩
  same := by
    rw [Scalar.settled, settled]
    rfl
  sized := Bool.noConfusion

private theorem takenAgain_vector256 {items : List (Hash 32)}
    (lengths :
      measured .vector256 (.array (items.map fun item => .string item.toHex)) = true) :
    TakenAgain context .vector256 (.array (items.map fun item => .string item.toHex))
      (.vector256 items) where
  taken := Outcome.bind_pure_eq_ok.mpr ⟨items, vectorOfJson_shown items, rfl⟩
  same := rfl
  sized := by
    intro _
    rw [measured, decide_eq_true_iff, List.length_map] at lengths
    rw [bytes, length_flatMap_bytes]
    exact lengths

private theorem takenAgain_named (named : context.registry.Named) {table : EnumKind}
    {code : Nat} (bound : code < 256 ^ table.width) {name : String}
    (known : (context.registry.table table).name? code = some name) :
    TakenAgain context (.named table) (.string name) (.named ⟨table, code⟩) where
  taken := by
    refine Outcome.bind_pure_eq_ok.mpr ⟨⟨table, code⟩, ?_, rfl⟩
    exact EnumCode.ofJson_of_name? named bound known
  same := by
    simp only [Scalar.settled, toJson, EnumCode.toJson, EnumCode.name?, known]
  sized := Bool.noConfusion

/-- A code is shown only by a name of it. -/
theorem name?_of_toJson {table : EnumKind} {code : Nat} {shown : Json}
    (shows : toJson context (.named ⟨table, code⟩) = .ok shown) :
    ∃ name, (context.registry.table table).name? code = some name ∧ shown = .string name := by
  cases known : (context.registry.table table).name? code with
  | none =>
      simp only [toJson, EnumCode.toJson, EnumCode.name?, known] at shows
      cases shows
  | some name =>
      simp only [toJson, EnumCode.toJson, EnumCode.name?, known, Except.ok.injEq] at shows
      exact ⟨name, rfl, shows.symm⟩

theorem takenAgain_of_legible (distinctive : context.addresses.Distinctive)
    (named : context.registry.Named) {kind : ScalarKind} {value : Scalar} {shown : Json}
    (legible : Legible kind value) (shows : value.toJson context = .ok shown)
    (fits : kind = .amount → Amount.givable shown = true)
    (lengths : measured kind shown = true) : ∃ again, TakenAgain context kind shown again := by
  cases legible with
  | uint8 value =>
      cases shows
      refine ⟨_, takenAgain_narrow (.uint8 <| UInt8.ofNat ·) value.toNat_lt (fun _ => rfl) ?_ rfl⟩
      rw [UInt8.ofNat_toNat]
      rfl
  | uint16 value =>
      cases shows
      refine ⟨_, takenAgain_narrow (.uint16 <| UInt16.ofNat ·) value.toNat_lt (fun _ => rfl) ?_ rfl⟩
      rw [UInt16.ofNat_toNat]
      rfl
  | uint32 value =>
      cases shows
      refine ⟨_, takenAgain_narrow (.uint32 <| UInt32.ofNat ·) value.toNat_lt (fun _ => rfl) ?_ rfl⟩
      rw [UInt32.ofNat_toNat]
      rfl
  | uint64 value =>
      cases shows
      exact ⟨_, takenAgain_uint64 value⟩
  | hash128 value =>
      cases shows
      exact ⟨_, takenAgain_hash value (fun _ => rfl) rfl rfl⟩
  | hash160 value =>
      cases shows
      exact ⟨_, takenAgain_hash value (fun _ => rfl) rfl rfl⟩
  | hash256 value =>
      cases shows
      exact ⟨_, takenAgain_hash value (fun _ => rfl) rfl rfl⟩
  | amount value =>
      cases shows
      exact takenAgain_amount distinctive (fits rfl)
  | blob octets =>
      cases shows
      exact ⟨_, takenAgain_blob lengths⟩
  | account value =>
      cases shows
      exact ⟨_, takenAgain_account distinctive value⟩
  | pathSet settled _ =>
      cases shows
      exact ⟨_, takenAgain_pathSet distinctive settled⟩
  | vector256 items =>
      cases shows
      exact ⟨_, takenAgain_vector256 lengths⟩
  | named bound =>
      obtain ⟨name, known, rfl⟩ := name?_of_toJson shows
      exact ⟨_, takenAgain_named named bound known⟩

/-- It is in normal form. -/
theorem TakenAgain.normal (distinctive : context.addresses.Distinctive)
    (named : context.registry.Named) {kind : ScalarKind} {shown : Json} {again : Scalar}
    (takenAgain : TakenAgain context kind shown again) :
    NormalForm.scalar context kind shown = shown := by
  have faithful := Scalar.faithful distinctive named takenAgain.taken
  exact Except.ok.inj (faithful.shown.symm.trans takenAgain.same)

/-! ## What is shown in any case -/

private theorem stays_amount_shown (distinctive : context.addresses.Distinctive) (amount : Amount) :
    Object.Stays context.addresses (amount.toJson context.addresses) := by
  cases amount with
  | native negative drops =>
      apply stays_string distinctive
      have bound : drops.val < 2 ^ 62 := drops.isLt
      have short : (toString drops.val).length ≤ 19 :=
        (Nat.length_repr_le_iff (by omega)).mpr (by omega)
      cases negative with
      | true =>
          rw [if_pos rfl, String.length_append]
          change 1 + _ ≠ 47
          omega
      | false =>
          rw [if_neg (by decide), String.empty_append]
          omega
  | issued word currency issuer =>
      exact ⟨Json.noConfusion, fun _ => Json.noConfusion⟩

private theorem distinctKeys_hop {writing : CheckedText} (hop : Hop) :
    (hop.toJson writing).distinctKeys = true := by
  obtain ⟨account, currency, issuer⟩ := hop
  apply Json.distinctKeys_object.mpr
  cases account <;> cases currency <;> cases issuer <;>
    simp [Account.toJson, Currency.toJson, Json.distinctKeys]

/-- No object that is shown of a scalar has two entries with one key. -/
theorem distinctKeys_shown {value : Scalar} {shown : Json}
    (shows : value.toJson context = .ok shown) : shown.distinctKeys = true := by
  cases value with
  | amount value =>
      cases shows
      cases value with
      | native negative drops =>
          rfl
      | issued word currency issuer =>
          apply Json.distinctKeys_object.mpr
          simp [Account.toJson, Currency.toJson, Json.distinctKeys]
  | pathSet set =>
      cases shows
      apply Json.distinctKeys_array.mpr
      intro shownPath member
      obtain ⟨path, _, rfl⟩ := List.mem_map.mp member
      apply Json.distinctKeys_array.mpr
      intro shownHop hopMember
      obtain ⟨hop, _, rfl⟩ := List.mem_map.mp hopMember
      exact distinctKeys_hop hop
  | vector256 items =>
      cases shows
      apply Json.distinctKeys_array.mpr
      intro shown member
      obtain ⟨item, _, rfl⟩ := List.mem_map.mp member
      rfl
  | named code =>
      obtain ⟨name, _, rfl⟩ := name?_of_toJson shows
      rfl
  | _ =>
      cases shows
      rfl

/-- No text that is shown of a scalar is taken for an extended address. -/
theorem stays_of_legible (distinctive : context.addresses.Distinctive)
    (named : context.registry.Named) {kind : ScalarKind} {value : Scalar} {shown : Json}
    (legible : Legible kind value) (shows : value.toJson context = .ok shown) :
    Object.Stays context.addresses shown := by
  cases legible with
  | uint8 value =>
      cases shows
      exact stays_ofNat _ _
  | uint16 value =>
      cases shows
      exact stays_ofNat _ _
  | uint32 value =>
      cases shows
      exact stays_ofNat _ _
  | uint64 value =>
      cases shows
      apply stays_string distinctive
      rw [Hex.length_encode, Bytes.length_ofNat]
      omega
  | hash128 value =>
      cases shows
      exact stays_hashToJson distinctive value
  | hash160 value =>
      cases shows
      exact stays_hashToJson distinctive value
  | hash256 value =>
      cases shows
      exact stays_hashToJson distinctive value
  | amount value =>
      cases shows
      exact stays_amount_shown distinctive value
  | blob octets =>
      cases shows
      apply stays_string distinctive
      rw [Hex.length_encode]
      omega
  | account value =>
      cases shows
      refine ⟨Json.noConfusion, fun text same => ?_⟩
      cases same
      exact Address.extended?_encodeClassic distinctive.toLawful value
  | pathSet settled stepped =>
      cases shows
      exact ⟨Json.noConfusion, fun _ => Json.noConfusion⟩
  | vector256 items =>
      cases shows
      exact ⟨Json.noConfusion, fun _ => Json.noConfusion⟩
  | named bound =>
      obtain ⟨name, known, rfl⟩ := name?_of_toJson shows
      exact stays_string distinctive (named.length_name known)

end Scalar

end LedgerWire
