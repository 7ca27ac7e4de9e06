import LedgerWire.Proofs.Base58
import LedgerWire.Proofs.HexDigits
import LedgerWire.Value.Account

/-!
# Address texts

A text writes one address at most, classic or extended, and never both. What
this rests on is that a checked text is read as octets exactly when it is
theirs.
-/

namespace LedgerWire

/-- A text is read as octets exactly when it is the text of these octets. -/
structure CheckedText.Lawful (writing : CheckedText) : Prop where
  decode_eq_ok : ∀ {text payload},
    writing.decode text = .ok payload ↔ text = writing.encode payload

theorem CheckedText.base58_lawful : CheckedText.base58.Lawful where
  decode_eq_ok := Base58.decodeChecked_eq_ok

private theorem CheckedText.Lawful.encode_inj {writing : CheckedText} (lawful : writing.Lawful)
    {left right : Bytes} : writing.encode left = writing.encode right ↔ left = right := by
  constructor
  · intro same
    have read := lawful.decode_eq_ok.mpr same
    rw [lawful.decode_eq_ok.mpr rfl] at read
    simpa using read
  · rintro rfl
    rfl

/-! ## Payloads of extended addresses -/

namespace ExtendedAddress

private theorem length_networkBytes (test : Bool) : (networkBytes test).length = 2 := by
  cases test <;> rfl

theorem readNetwork_eq_ok {octets : Bytes} {test : Bool} :
    readNetwork octets = .ok test ↔ octets = networkBytes test := by
  unfold readNetwork
  by_cases main : octets = networkBytes false
  · cases test <;> simp [main, networkBytes]
  · by_cases other : octets = networkBytes true
    · cases test <;> simp [other, networkBytes]
    · cases test <;> simp [main, other]

/-- The flag and the tag of an address without the octets around them. -/
theorem readTag_eq_ok {flag : UInt8} {octets : Bytes} (size : octets.length = 4)
    {tag : Option UInt32} :
    readTag flag octets = .ok tag ↔ flag :: octets = tagBytes tag := by
  unfold readTag
  by_cases absent : flag = 0
  · subst absent
    have zeros : octets.all (· == 0) = true ↔ octets = [0, 0, 0, 0] := by
      rw [List.all_eq_true]
      simp only [beq_iff_eq]
      have replicated := List.eq_replicate_iff (n := 4) (a := (0 : UInt8)) (l := octets)
      simp only [size, true_and, List.replicate] at replicated
      exact replicated.symm
    cases tag with
    | none =>
        simp [zeros, tagBytes]
    | some tag =>
        rw [if_pos rfl]
        split <;> simp [tagBytes]
  · by_cases present : flag = 1
    · subst present
      cases tag with
      | none =>
          simp [tagBytes]
      | some tag =>
          have written : Bytes.ofNat 4 (Bytes.toNat octets.reverse) = octets.reverse := by
            simpa [size] using Bytes.ofNat_toNat octets.reverse
          have bound : Bytes.toNat octets.reverse < 2 ^ 32 := by
            simpa [size] using Bytes.toNat_lt octets.reverse
          simp only [tagBytes, Bytes.ofNatLittle, Bytes.toNatLittle, absent, if_false, if_true,
            Except.ok.injEq, Option.some.injEq, List.cons.injEq, true_and]
          constructor
          · rintro rfl
            rw [UInt32.toNat_ofNat_of_lt' bound, written, List.reverse_reverse]
          · rintro rfl
            rw [List.reverse_reverse, Bytes.toNat_ofNat_of_lt (by simpa using tag.toNat_lt),
              UInt32.ofNat_toNat]
    · cases tag <;> simp [absent, present, tagBytes]

private theorem length_tagBytes (tag : Option UInt32) : (tagBytes tag).length = 5 := by
  cases tag <;> simp [tagBytes, Bytes.ofNatLittle]

/-- A payload has its parts in fixed places. -/
theorem eq_payload_iff {octets : Bytes} (size : octets.length = 31) (address : ExtendedAddress) :
    octets = address.payload ↔
      octets.take 2 = networkBytes address.test ∧
        (octets.drop 2).take 20 = address.account.bytes ∧
        octets.getD 22 0 :: (octets.drop 23).take 4 = tagBytes address.tag ∧
        octets.drop 27 = [0, 0, 0, 0] := by
  have tail : octets.drop 22 =
      octets.getD 22 0 :: (octets.drop 23).take 4 ++ octets.drop 27 := by
    rw [List.cons_append, ← List.drop_drop (i := 4) (j := 23), List.take_append_drop,
      List.drop_eq_getElem_cons (by omega)]
    simp [List.getD, size]
  have parts : octets = octets.take 2 ++ (octets.drop 2).take 20 ++
      (octets.getD 22 0 :: (octets.drop 23).take 4) ++ octets.drop 27 := by
    calc
      octets = octets.take 2 ++ ((octets.drop 2).take 20 ++ octets.drop 22) := by
        rw [← List.drop_drop (i := 20) (j := 2), List.take_append_drop, List.take_append_drop]
      _ = _ := by
        rw [tail]
        simp
  constructor
  · intro same
    rw [parts, payload] at same
    obtain ⟨same, wide⟩ := List.append_inj same (by
      simp [size, length_networkBytes, length_tagBytes, address.account.length_bytes])
    obtain ⟨same, tag⟩ := List.append_inj same (by
      simp [size, length_networkBytes, address.account.length_bytes])
    obtain ⟨network, account⟩ := List.append_inj same (by simp [size, length_networkBytes])
    exact ⟨network, account, tag, wide⟩
  · rintro ⟨network, account, tag, wide⟩
    rw [parts, payload, network, account, tag, wide]

private theorem length_payload (address : ExtendedAddress) : address.payload.length = 31 := by
  simp [payload, length_networkBytes, length_tagBytes, address.account.length_bytes]

theorem ofPayload_eq_ok {octets : Bytes} {address : ExtendedAddress} :
    ofPayload octets = .ok address ↔ octets = address.payload := by
  by_cases size : octets.length = 31
  · have tagSize : ((octets.drop 23).take 4).length = 4 := by simp [size]
    have narrow : (octets.drop 27).any (· != 0) = false ↔ octets.drop 27 = [0, 0, 0, 0] := by
      have replicated := List.eq_replicate_iff (n := 4) (a := (0 : UInt8)) (l := octets.drop 27)
      simp only [List.length_drop, size, true_and, List.replicate] at replicated
      simp [replicated]
    rw [eq_payload_iff size, ← readNetwork_eq_ok, ← readTag_eq_ok tagSize, ← narrow]
    obtain ⟨account, tag, test⟩ := address
    have held : Hash.ofBytes? 20 ((octets.drop 2).take 20) =
        some ⟨(octets.drop 2).take 20, by simp [size]⟩ := by
      simp [Hash.ofBytes?, size]
    rw [ofPayload, if_pos size, held]
    cases readNetwork (octets.take 2) with
    | error fault =>
        simp
    | ok network =>
        cases wide : (octets.drop 27).any (· != 0) with
        | true =>
            simp
        | false =>
            cases readTag (octets.getD 22 0) ((octets.drop 23).take 4) with
            | error fault =>
                simp
            | ok read =>
                simp [Hash.ext_iff]
                tauto
  · have other : octets ≠ address.payload := by
      rintro rfl
      exact size (length_payload address)
    simp [ofPayload, size, other]

end ExtendedAddress

/-! ## Reading texts -/

namespace Address

variable {writing : CheckedText} (lawful : writing.Lawful)

include lawful

theorem payload_eq_ok {text : String} {octets : Bytes} :
    payload writing text = .ok octets ↔ text = writing.encode octets := by
  rw [← lawful.decode_eq_ok, payload, Outcome.mapError_eq_ok]

theorem decodeClassic_eq_ok {text : String} {account : AccountId} :
    decodeClassic writing text = .ok account ↔ text = encodeClassic writing account := by
  rw [decodeClassic, encodeClassic, ← payload_eq_ok lawful, Outcome.bind_eq_ok]
  constructor
  · rintro ⟨octets, read, checked⟩
    match octets with
    | [] =>
        simp at checked
    | version :: rest =>
        cases held : Hash.ofBytes? 20 rest with
        | none =>
            simp [held] at checked
        | some found =>
            by_cases isZero : version = 0
            · simp only [held, isZero, if_true, Outcome.pure_eq_ok, Except.ok.injEq] at checked
              rw [read, isZero, ← checked, Hash.bytes_of_ofBytes? held]
            · simp [held, isZero] at checked
  · intro read
    exact ⟨_, read, by simp⟩

theorem decodeExtended_eq_ok {text : String} {address : ExtendedAddress} :
    decodeExtended writing text = .ok address ↔ text = encodeExtended writing address := by
  rw [decodeExtended, encodeExtended, ← payload_eq_ok lawful, Outcome.bind_eq_ok]
  simp [ExtendedAddress.ofPayload_eq_ok]

theorem extended?_eq_some {text : String} {address : ExtendedAddress} :
    extended? writing text = some address ↔ text = encodeExtended writing address := by
  rw [← decodeExtended_eq_ok lawful, extended?]
  cases decodeExtended writing text <;> simp [Except.toOption]

theorem extended?_encodeClassic (account : AccountId) :
    extended? writing (encodeClassic writing account) = none := by
  cases found : extended? writing (encodeClassic writing account) with
  | none =>
      rfl
  | some address =>
      rw [extended?_eq_some lawful, encodeClassic, encodeExtended, lawful.encode_inj] at found
      have sizes := congrArg List.length found
      rw [address.length_payload] at sizes
      simp [account.length_bytes] at sizes

/-- Whatever is written is read back, whatever is read is written the same again, and no text
is read as an extended and as a classic address. For an extended address this is because its
octets are the only ones that are read as it: the flag, the octets of an absent tag and the
upper half of a tag leave no choice. -/
theorem texts_canonical :
    (∀ address, decodeExtended writing (encodeExtended writing address) = .ok address) ∧
    (∀ account, decodeClassic writing (encodeClassic writing account) = .ok account) ∧
    (∀ text address, decodeExtended writing text = .ok address →
      encodeExtended writing address = text) ∧
    (∀ text account, decodeClassic writing text = .ok account →
      encodeClassic writing account = text) ∧
    (∀ text account address, decodeClassic writing text = .ok account →
      decodeExtended writing text ≠ .ok address) ∧
    ∀ octets address, ExtendedAddress.ofPayload octets = .ok address ↔
      octets = address.payload := by
  refine ⟨fun address => (decodeExtended_eq_ok lawful).mpr rfl,
    fun account => (decodeClassic_eq_ok lawful).mpr rfl, ?_, ?_, ?_,
    fun octets address => ExtendedAddress.ofPayload_eq_ok⟩
  · intro text address read
    exact ((decodeExtended_eq_ok lawful).mp read).symm
  · intro text account read
    exact ((decodeClassic_eq_ok lawful).mp read).symm
  · intro text account address classic extended
    have absent := extended?_encodeClassic lawful account
    rw [← (decodeClassic_eq_ok lawful).mp classic, extended?, extended] at absent
    cases absent

end Address

open Address in
/-- The zero account with a tag, without one on the test network, and alone. -/
theorem Address.texts_canonical_tagged :
    decodeExtended CheckedText.base58 "X7TYFRtYHMcHtT2qNycMwgXzFbcRvEmP1m99C3gzRyGTY1F" =
        .ok ⟨Hash.zero 20, some 12, false⟩ ∧
      encodeExtended CheckedText.base58 ⟨Hash.zero 20, some 12, false⟩ =
        "X7TYFRtYHMcHtT2qNycMwgXzFbcRvEmP1m99C3gzRyGTY1F" ∧
      decodeClassic CheckedText.base58 (encodeClassic CheckedText.base58 (Hash.zero 20)) =
        .ok (Hash.zero 20) ∧
      ExtendedAddress.ofPayload (ExtendedAddress.payload ⟨Hash.zero 20, none, true⟩) =
        .ok ⟨Hash.zero 20, none, true⟩ := by
  obtain ⟨_, classic, rewritten, _, _, payloads⟩ := texts_canonical CheckedText.base58_lawful
  have read : decodeExtended CheckedText.base58
      "X7TYFRtYHMcHtT2qNycMwgXzFbcRvEmP1m99C3gzRyGTY1F" = .ok ⟨Hash.zero 20, some 12, false⟩ :=
    Outcome.eq_ok_of_toOption (by decide +kernel)
  exact ⟨read, rewritten _ _ read, classic (Hash.zero 20), (payloads _ _).mpr rfl⟩

/-! ## The texts of the ledger's own writing -/

/-- What is asked of address texts so that no other text of a document is taken
for one: those of extended addresses have 47 characters, and classic ones start
with a small letter. -/
structure CheckedText.Distinctive (writing : CheckedText) : Prop extends writing.Lawful where
  length_extended : ∀ address, (Address.encodeExtended writing address).length = 47
  classic_lead : ∀ account, ∃ rest,
    (Address.encodeClassic writing account).toList = 'r' :: rest

theorem CheckedText.base58_distinctive : CheckedText.base58.Distinctive where
  toLawful := CheckedText.base58_lawful
  length_extended address := by
    have checked : Address.encodeExtended CheckedText.base58 address =
        Base58.encode (address.payload ++ Base58.checksum address.payload) := rfl
    rw [checked]
    have rest :
        address.account.bytes.length + (ExtendedAddress.tagBytes address.tag).length = 25 := by
      rw [address.account.length_bytes, ExtendedAddress.length_tagBytes]
    unfold ExtendedAddress.payload
    cases address.test with
    | false =>
        exact Base58.length_encode_of_lead (.inr rfl) (by simp; omega)
    | true =>
        exact Base58.length_encode_of_lead (.inl rfl) (by simp; omega)
  classic_lead account := by
    have checked : Address.encodeClassic CheckedText.base58 account =
        Base58.encode (0 :: account.bytes ++ Base58.checksum (0 :: account.bytes)) := rfl
    rw [checked, Base58.encode]
    simp only [List.cons_append, List.takeWhile_cons, beq_self_eq_true, if_true, List.map_cons,
      String.toList_ofList]
    exact ⟨_, rfl⟩

theorem Address.extended?_of_length {writing : CheckedText} (distinctive : writing.Distinctive)
    {text : String} (size : text.length ≠ 47) : extended? writing text = none := by
  cases found : extended? writing text with
  | none =>
      rfl
  | some address =>
      rw [extended?_eq_some distinctive.toLawful] at found
      rw [found] at size
      exact absurd (distinctive.length_extended address) size

theorem Account.parse_encodeClassic {writing : CheckedText} (distinctive : writing.Distinctive)
    (account : AccountId) :
    parse writing (Address.encodeClassic writing account) = .ok account := by
  obtain ⟨rest, lead⟩ := distinctive.classic_lead account
  have nonempty : (Address.encodeClassic writing account).isEmpty = false := by
    rw [← Bool.not_eq_true, String.isEmpty_iff, ← String.toList_inj, lead]
    simp
  have lower : Hex.isUpper 40 (Address.encodeClassic writing account) = false := by
    simp [Hex.isUpper, lead]
  have classic := (Address.decodeClassic_eq_ok distinctive.toLawful).mpr
    (rfl : Address.encodeClassic writing account = _)
  rw [parse, nonempty, lower, Address.extended?_encodeClassic distinctive.toLawful, classic]
  rfl

end LedgerWire
