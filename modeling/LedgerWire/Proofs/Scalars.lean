import LedgerWire.Proofs.Integers
import LedgerWire.Proofs.Paths
import LedgerWire.Value.Scalar

/-!
# Values without fields of their own

For each kind of value: what a document gives is shown in normal form, the
normal form gives the same octets again, the octets are read back, and no normal
form is taken for an extended address.
-/

namespace LedgerWire

/-! ## Hashes -/

theorem Hash.eq_zero_of_isZero {width : Nat} {hash : Hash width} (isZero : hash.isZero = true) :
    hash = Hash.zero width := by
  apply Hash.ext
  rw [Hash.isZero, List.all_eq_true] at isZero
  exact List.eq_replicate_iff.mpr ⟨hash.length_bytes, by simpa using isZero⟩

/-- A text spells zero octets when all its characters are zeros. -/
theorem Hex.all_zero_iff {text : String} {bytes : Bytes} (decoded : decode text = .ok bytes) :
    text.toList.all (· == '0') = bytes.all (· == 0) := by
  have spells := decode_eq_ok.mp decoded
  have related := spells.forall₂
  have ascii := spells.ascii
  have characters : ∀ code < 128, ∀ value < 16, digit value = (Char.ofNat code).toUpper →
      (Char.ofNat code == '0') = (value == 0) := by
    decide
  have halvesZero : (halves bytes).all (· == 0) = bytes.all (· == 0) := by
    clear related spells decoded
    induction bytes with
    | nil =>
        rfl
    | cons byte rest inductionHypothesis =>
        have split : (byte.toNat / 16 == 0 && byte.toNat % 16 == 0) = (byte == 0) := by
          rw [Bool.eq_iff_iff]
          simp only [Bool.and_eq_true, beq_iff_eq, ← UInt8.toNat_inj]
          change _ ↔ byte.toNat = 0
          omega
        rw [halves_cons, List.all_cons, List.all_cons, List.all_cons, inductionHypothesis,
          ← Bool.and_assoc, split]
  rw [← halvesZero]
  generalize text.toList = chars at related ascii
  generalize halves bytes = digits at related
  clear spells decoded halvesZero
  induction related with
  | nil =>
      rfl
  | cons head _ inductionHypothesis =>
      have narrow := ascii _ List.mem_cons_self
      have same := characters _ narrow _ head.2 (by rw [Char.ofNat_toNat]; exact head.1)
      rw [Char.ofNat_toNat] at same
      rw [List.all_cons, List.all_cons, same,
        inductionHypothesis fun c member => ascii c (List.mem_cons_of_mem _ member)]

namespace Scalar

variable {json : Json}

theorem hashOfJson_eq_ok {width : Nat} {hash : Hash width} :
    hashOfJson width json = .ok hash ↔
      ∃ text, json = .string text ∧
        (width = 16 ∧ text = "" ∧ hash = Hash.zero width ∨
          ¬ (width = 16 ∧ text = "") ∧ Hash.ofHex width text = .ok hash) := by
  cases json with
  | string text =>
      by_cases empty : width = 16 ∧ text = ""
      · obtain ⟨rfl, rfl⟩ := empty
        simp [hashOfJson, Json.asString, eq_comm (a := hash)]
      · simp [hashOfJson, Json.asString, String.isEmpty_iff, empty]
        tauto
  | _ =>
      simp [hashOfJson, Json.asString]

/-- A hash is shown in capitals, but for the zero hash of 16 octets. -/
theorem hash_of_hashOfJson {width : Nat} {hash : Hash width}
    (read : hashOfJson width json = .ok hash) :
    NormalForm.hash width json = hashToJson hash ∧
      hashOfJson width (hashToJson hash) = .ok hash := by
  obtain ⟨text, rfl, empty | ⟨nonempty, spelled⟩⟩ := hashOfJson_eq_ok.mp read
  · obtain ⟨rfl, rfl, rfl⟩ := empty
    have shown : hashToJson (Hash.zero 16) = .string "" := rfl
    rw [shown]
    exact ⟨rfl, read⟩
  · have zeros : text.toList.all (· == '0') = hash.isZero :=
      Hex.all_zero_iff (Hash.ofHex_eq_ok.mp spelled)
    have capitals := Hash.toHex_of_ofHex spelled
    rw [NormalForm.hash, hashToJson, zeros]
    by_cases short : width = 16 ∧ hash.isZero = true
    · obtain ⟨rfl, isZero⟩ := short
      rw [if_pos ⟨rfl, isZero⟩, if_pos ⟨rfl, isZero⟩]
      exact ⟨rfl, hashOfJson_eq_ok.mpr ⟨_, rfl, .inl ⟨rfl, rfl, Hash.eq_zero_of_isZero isZero⟩⟩⟩
    · rw [if_neg short, if_neg short, capitals]
      refine ⟨rfl, hashOfJson_eq_ok.mpr ⟨_, rfl, .inr ⟨?_, ?_⟩⟩⟩
      · rintro ⟨rfl, none⟩
        have size := hash.length_toHex
        rw [capitals, none] at size
        cases size
      · rw [← capitals, Hash.ofHex_toHex]

/-! ## Blobs and vectors -/

theorem blobOfJson_eq_ok {bytes : Bytes} :
    blobOfJson json = .ok bytes ↔ ∃ text, json = .string text ∧ Hex.decode text = .ok bytes := by
  cases json with
  | string text =>
      cases decoded : Hex.decode text <;> simp [blobOfJson, Json.asString, decoded]
  | _ =>
      simp [blobOfJson, Json.asString]

theorem vectorOfJson_eq_ok {hashes : List (Hash 32)} :
    vectorOfJson json = .ok hashes ↔
      ∃ items, json = .array items ∧
        List.Forall₂ (fun item hash => ∃ text, item = .string text ∧ Hash.ofHex 32 text = .ok hash)
          items hashes := by
  have item : ∀ (item : Json) (hash : Hash 32),
      (item.asString "Vector256" >>= Hash.ofHex 32) = .ok hash ↔
        ∃ text, item = .string text ∧ Hash.ofHex 32 text = .ok hash := by
    intro item hash
    cases item <;> simp [Json.asString]
  cases json with
  | array items =>
      simp only [vectorOfJson, Json.asArray, Outcome.ok_bind, Outcome.mapM_eq_ok, item,
        Json.array.injEq, exists_eq_left']
  | _ =>
      simp [vectorOfJson, Json.asArray]

private theorem vector_of_vectorOfJson {hashes : List (Hash 32)}
    (read : vectorOfJson json = .ok hashes) :
    NormalForm.vector json = .array (hashes.map fun hash => .string hash.toHex) ∧
      vectorOfJson (.array (hashes.map fun hash => .string hash.toHex)) = .ok hashes := by
  obtain ⟨items, rfl, related⟩ := vectorOfJson_eq_ok.mp read
  constructor
  · rw [NormalForm.vector]
    congr 1
    clear read
    induction related with
    | nil =>
        rfl
    | cons head _ inductionHypothesis =>
        obtain ⟨text, rfl, spelled⟩ := head
        rw [List.map_cons, List.map_cons, inductionHypothesis, NormalForm.capitals,
          Hash.toHex_of_ofHex spelled]
  · refine vectorOfJson_eq_ok.mpr ⟨_, rfl, ?_⟩
    rw [List.forall₂_map_left_iff, List.forall₂_same]
    exact fun hash _ => ⟨hash.toHex, rfl, hash.ofHex_toHex⟩

private theorem takes_readHashes {width : Nat} (hashes : List (Hash width)) :
    Takes (readHashes width hashes.length) (hashes.flatMap Hash.bytes) hashes := by
  induction hashes with
  | nil =>
      exact Takes.pure []
  | cons hash hashes inductionHypothesis =>
      rw [List.flatMap_cons]
      exact (Takes.hash hash).bind (inductionHypothesis.bind_pure rfl)

theorem length_flatMap_bytes {width : Nat} (hashes : List (Hash width)) :
    (hashes.flatMap Hash.bytes).length = width * hashes.length := by
  induction hashes with
  | nil =>
      rfl
  | cons hash hashes inductionHypothesis =>
      rw [List.flatMap_cons, List.length_append, hash.length_bytes, inductionHypothesis,
        List.length_cons, Nat.mul_succ, Nat.add_comm]

end Scalar

/-! ## Codes with names -/

/-- A name that shows a code of the registry stands for this code, and is not as
long as extended addresses are. -/
structure Registry.Named (registry : Registry) : Prop where
  code_of_name : ∀ {table code name}, (registry.table table).name? code = some name →
    (registry.table table).code? name = some code
  length_name : ∀ {table code name}, (registry.table table).name? code = some name →
    name.length ≠ 47

namespace EnumCode

variable {registry : Registry} {table : EnumKind} {json : Json} {value : EnumCode}

theorem ofCode_eq_ok {code : Int} (taken : ofCode registry table code = .ok value) :
    ∃ name, (registry.table table).name? code = some name ∧ 0 ≤ code ∧
      code < 256 ^ table.width ∧ value = ⟨table, code.toNat⟩ := by
  unfold ofCode at taken
  split at taken
  · cases taken
  · rename_i known
    split at taken
    · rename_i range
      cases taken
      obtain ⟨name, found⟩ := Option.ne_none_iff_exists'.mp (by simpa using known)
      exact ⟨name, found, range.1, range.2, rfl⟩
    · cases taken

/-- A code is shown by its name, and the name is read as the code. -/
theorem named_of_ofJson (sound : registry.Named) (read : ofJson registry table json = .ok value) :
    ∃ name, NormalForm.named registry table json = .string name ∧
      value.toJson registry = .ok (.string name) ∧
      ofJson registry table (.string name) = .ok value ∧ name.length ≠ 47 := by
  obtain ⟨code, found, taken⟩ := Outcome.bind_eq_ok.mp read
  obtain ⟨name, known, positive, _, same⟩ := ofCode_eq_ok taken
  refine ⟨name, ?_, ?_, ?_, sound.length_name known⟩
  · simp only [NormalForm.named, found, known, Option.map_some, Option.getD_some]
  · have natural : ((code.toNat : Nat) : Int) = code := Int.toNat_of_nonneg positive
    simp only [toJson, name?, same, natural, known]
  · simp only [ofJson, codeOfJson, sound.code_of_name known, Outcome.ok_bind]
    exact taken

private theorem takes_read_of_ofJson (found : ofJson registry table json = .ok value) :
    Takes (read table) value.bytes value := by
  obtain ⟨code, _, taken⟩ := Outcome.bind_eq_ok.mp found
  obtain ⟨_, _, positive, bound, rfl⟩ := ofCode_eq_ok taken
  have small : code.toNat < 256 ^ table.width := by
    zify
    rwa [Int.toNat_of_nonneg positive]
  exact (Takes.number small).bind_pure rfl

end EnumCode

/-! ## All kinds -/

/-- Whether an announced length stands in front of the values of a kind. -/
def ScalarKind.sized : ScalarKind → Bool
  | .blob => true
  | .account => true
  | .vector256 => true
  | _ => false

namespace Scalar

/-- The value as it is read back. -/
def settled : Scalar → Scalar
  | .pathSet set => .pathSet set.settled
  | scalar => scalar

theorem bytes_settled (scalar : Scalar) : scalar.settled.bytes = scalar.bytes := by
  cases scalar with
  | pathSet set =>
      exact set.bytes_settled
  | _ =>
      rfl

/-- The announced length in front of a value. -/
def sizeOf (kind : ScalarKind) (bytes : Bytes) : Option Nat :=
  if kind.sized then some bytes.length else none

/-- What a document gives for a value of a kind. -/
structure Faithful (context : Context) (kind : ScalarKind) (json : Json) (scalar : Scalar) :
    Prop where
  shown : scalar.settled.toJson context = .ok (NormalForm.scalar context kind json)
  again : ofJson context (NormalForm.scalar context kind json) kind = .ok scalar.settled
  stays : Object.Stays context.addresses (NormalForm.scalar context kind json)
  taken : (kind = .pathSet → PathSet.hasSteps json = true) →
    Takes (read (sizeOf kind scalar.bytes) kind) scalar.bytes scalar.settled

theorem stays_ofNat (writing : CheckedText) (value : Nat) :
    Object.Stays writing (Json.ofNat value) :=
  ⟨by simp [Json.ofNat], by simp [Json.ofNat]⟩

theorem stays_string {writing : CheckedText} (distinctive : writing.Distinctive) {text : String}
    (size : text.length ≠ 47) : Object.Stays writing (.string text) := by
  refine ⟨by simp, fun other same => ?_⟩
  cases same
  exact Address.extended?_of_length distinctive size

variable {context : Context} {json : Json}

private theorem faithful_narrow {typeName : String} {width value : Nat} (kind : ScalarKind)
    (hold : Nat → Scalar) (found : Unsigned.ofJson typeName width json = .ok value)
    (normal : NormalForm.scalar context kind = NormalForm.narrow)
    (given : ∀ json, ofJson context json kind =
      Unsigned.ofJson typeName width json >>= fun value => pure (hold value))
    (kept : value < 256 ^ width → (hold value).toJson context = .ok (Json.ofNat value) ∧
      (hold value).settled = hold value ∧ (hold value).bytes = Bytes.ofNat width value)
    (taken : ∀ octets, read (sizeOf kind octets) kind =
      Read.number width >>= fun value => pure (hold value)) :
    Faithful context kind json (hold value) := by
  obtain ⟨shown, again, bound⟩ := Unsigned.narrow_of_ofJson found
  obtain ⟨toNumber, settles, octets⟩ := kept bound
  refine ⟨?_, ?_, ?_, fun _ => ?_⟩
  · rw [settles, toNumber, normal, shown]
  · rw [normal, shown, given, again, settles]
    rfl
  · rw [normal, shown]
    exact stays_ofNat _ value
  · rw [taken, octets, settles]
    exact (Takes.number bound).bind_pure rfl

private theorem faithful_uint8 {value : Nat} (found : Unsigned.ofJson "UInt8" 1 json = .ok value) :
    Faithful context .uint8 json (.uint8 (UInt8.ofNat value)) := by
  refine faithful_narrow .uint8 (.uint8 <| UInt8.ofNat ·) found rfl (fun _ => rfl)
    (fun bound => ?_) fun _ => rfl
  have same : (UInt8.ofNat value).toNat = value := UInt8.toNat_ofNat_of_lt' bound
  simp [toJson, settled, bytes, same]

private theorem faithful_uint16 {value : Nat}
    (found : Unsigned.ofJson "UInt16" 2 json = .ok value) :
    Faithful context .uint16 json (.uint16 (UInt16.ofNat value)) := by
  refine faithful_narrow .uint16 (.uint16 <| UInt16.ofNat ·) found rfl (fun _ => rfl)
    (fun bound => ?_) fun _ => rfl
  have same : (UInt16.ofNat value).toNat = value := UInt16.toNat_ofNat_of_lt' bound
  simp [toJson, settled, bytes, same]

private theorem faithful_uint32 {value : Nat}
    (found : Unsigned.ofJson "UInt32" 4 json = .ok value) :
    Faithful context .uint32 json (.uint32 (UInt32.ofNat value)) := by
  refine faithful_narrow .uint32 (.uint32 <| UInt32.ofNat ·) found rfl (fun _ => rfl)
    (fun bound => ?_) fun _ => rfl
  have same : (UInt32.ofNat value).toNat = value := UInt32.toNat_ofNat_of_lt' bound
  simp [toJson, settled, bytes, same]

private theorem takes_readHash {width : Nat} (positive : 0 < width) (hash : Hash width) :
    Takes (readHash width (some hash.bytes.length)) hash.bytes hash := by
  rw [hash.length_bytes]
  obtain ⟨less, rfl⟩ : ∃ less, width = less + 1 := ⟨width - 1, by omega⟩
  rw [readHash, if_pos rfl]
  · exact Takes.hash hash
  · omega

private theorem faithful_vector256 {hashes : List (Hash 32)}
    (found : vectorOfJson json = .ok hashes) :
    Faithful context .vector256 json (.vector256 hashes) := by
  obtain ⟨shown, again⟩ := vector_of_vectorOfJson found
  have normal : NormalForm.scalar context .vector256 json =
      .array (hashes.map fun hash => .string hash.toHex) := shown
  refine ⟨?_, ?_, normal ▸ ⟨by simp, by simp⟩, fun _ => ?_⟩
  · simp [normal, settled, toJson]
  · simp [normal, ofJson, again, settled]
  · have taken := takes_readHashes hashes
    rw [bytes, sizeOf, ScalarKind.sized, if_pos rfl, length_flatMap_bytes]
    simp only [read, Nat.mul_mod_right, if_true]
    rw [Nat.mul_div_cancel_left _ (by omega)]
    exact taken.bind_pure rfl

section Texts

variable (distinctive : context.addresses.Distinctive)

include distinctive

private theorem faithful_uint64 {value : Nat} (found : Unsigned.ofHexJson json = .ok value) :
    Faithful context .uint64 json (.uint64 (UInt64.ofNat value)) := by
  obtain ⟨shown, again⟩ := Unsigned.wide_of_ofHexJson found
  have kept : (UInt64.ofNat value).toNat = value % 256 ^ 8 := UInt64.toNat_ofNat'
  have reduced : UInt64.ofNat (value % 2 ^ 64) = UInt64.ofNat value := by
    rw [← UInt64.toNat_inj, UInt64.toNat_ofNat', UInt64.toNat_ofNat', Nat.mod_mod]
  have normal : NormalForm.scalar context .uint64 json =
      .string (Hex.encode (Bytes.ofNat 8 value)) := shown
  refine ⟨?_, ?_, normal ▸ stays_string distinctive (by simp [Hex.length_encode]), fun _ => ?_⟩
  · simp only [settled, toJson, normal, kept, Hex.encode_ofNat_mod]
  · simp only [normal, ofJson, again, Outcome.ok_bind, Outcome.pure_eq_ok, settled, reduced]
  · have taken : Takes (Read.number 8) (Bytes.ofNat 8 (value % 256 ^ 8)) (value % 256 ^ 8) :=
      Takes.number (Nat.mod_lt _ (by norm_num))
    rw [bytes, kept]
    refine taken.bind_pure ?_
    rw [show value % 256 ^ 8 = value % 2 ^ 64 by norm_num, reduced]
    rfl

theorem stays_hashToJson {width : Nat} (hash : Hash width) :
    Object.Stays context.addresses (hashToJson hash) := by
  unfold hashToJson
  split
  · exact stays_string distinctive (by decide)
  · refine stays_string distinctive ?_
    rw [hash.length_toHex]
    omega

private theorem faithful_hash {width : Nat} {hash : Hash width} {kind : ScalarKind}
    {hold : Hash width → Scalar} (found : hashOfJson width json = .ok hash)
    (normal : NormalForm.scalar context kind = NormalForm.hash width)
    (given : ∀ json, ofJson context json kind =
      hashOfJson width json >>= fun hash => pure (hold hash))
    (kept : (hold hash).toJson context = .ok (hashToJson hash) ∧
      (hold hash).settled = hold hash ∧ (hold hash).bytes = hash.bytes)
    (taken : ∀ octets, read (sizeOf kind octets) kind =
      Read.hash width >>= fun hash => pure (hold hash)) :
    Faithful context kind json (hold hash) := by
  obtain ⟨shown, again⟩ := hash_of_hashOfJson found
  obtain ⟨toText, settles, octets⟩ := kept
  refine ⟨?_, ?_, ?_, fun _ => ?_⟩
  · rw [settles, toText, normal, shown]
  · rw [normal, shown, given, again, settles]
    rfl
  · rw [normal, shown]
    exact stays_hashToJson distinctive hash
  · rw [taken, octets, settles]
    exact (Takes.hash hash).bind_pure rfl

/-- A number of drops is too short for an extended address. -/
theorem stays_amount {amount : Amount} (found : Amount.ofJson context.addresses json = .ok amount) :
    Object.Stays context.addresses (amount.toJson context.addresses) := by
  unfold Amount.ofJson at found
  split at found
  · obtain ⟨drops, spelled, small, rfl⟩ := Amount.ofDrops_eq_ok.mp found
    refine stays_string distinctive ?_
    have short : (toString ((Fin.ofNat (2 ^ 62) drops).val)).length ≤ 18 := by
      refine (Nat.length_repr_le_iff (by omega)).mpr ?_
      unfold Amount.greatestDrops at small
      rw [Fin.val_ofNat, Nat.mod_eq_of_lt (by omega)]
      omega
    simp only [Bool.false_eq_true, if_false, String.empty_append]
    omega
  · obtain ⟨_, _, _, _, _, _, _, _, _, _, rfl⟩ := Amount.ofEntries_eq_ok.mp found
    exact ⟨by simp [Amount.toJson], by simp [Amount.toJson]⟩
  · cases found

private theorem faithful_amount {amount : Amount}
    (found : Amount.ofJson context.addresses json = .ok amount) :
    Faithful context .amount json (.amount amount) := by
  have faithful := Amount.faithful distinctive found
  have normal : NormalForm.scalar context .amount json = amount.toJson context.addresses :=
    faithful.shown.symm
  refine ⟨?_, ?_, normal ▸ stays_amount distinctive found, fun _ => ?_⟩
  · simp [normal, settled, toJson]
  · simp [normal, ofJson, faithful.again, settled]
  · exact faithful.taken.bind_pure rfl

private theorem faithful_blob {octets : Bytes} (found : blobOfJson json = .ok octets) :
    Faithful context .blob json (.blob octets) := by
  obtain ⟨text, rfl, decoded⟩ := blobOfJson_eq_ok.mp found
  have normal : NormalForm.scalar context .blob (.string text) = .string (Hex.encode octets) := by
    rw [Hex.encode_of_decode decoded]
    rfl
  have odd : (Hex.encode octets).length ≠ 47 := by
    rw [Hex.length_encode]
    omega
  have again : blobOfJson (.string (Hex.encode octets)) = .ok octets :=
    blobOfJson_eq_ok.mpr ⟨_, rfl, Hex.decode_encode octets⟩
  refine ⟨?_, ?_, normal ▸ stays_string distinctive odd, fun _ => ?_⟩
  · simp [normal, settled, toJson]
  · simp [normal, ofJson, again, settled]
  · exact (Takes.octets octets).bind_pure rfl

private theorem faithful_account {account : AccountId}
    (found : Account.ofJson context.addresses "AccountID" json = .ok account) :
    Faithful context .account json (.account account) := by
  have normal : NormalForm.scalar context .account json =
      Account.toJson context.addresses account := Account.normal_of_ofJson found
  have stays : Object.Stays context.addresses (Account.toJson context.addresses account) := by
    refine ⟨by simp [Account.toJson], fun text same => ?_⟩
    cases same
    exact Address.extended?_encodeClassic distinctive.toLawful account
  refine ⟨?_, ?_, normal ▸ stays, fun _ => ?_⟩
  · simp [normal, settled, toJson]
  · simp [normal, ofJson, Account.ofJson_toJson distinctive, settled]
  · exact (takes_readHash (by omega) account).bind_pure rfl

private theorem faithful_pathSet {set : PathSet}
    (found : PathSet.ofJson context.addresses json = .ok set) :
    Faithful context .pathSet json (.pathSet set) := by
  have faithful := PathSet.faithful distinctive found
  have normal : NormalForm.scalar context .pathSet json = set.settled.toJson context.addresses :=
    faithful.shown.symm
  have stays : Object.Stays context.addresses (set.settled.toJson context.addresses) :=
    ⟨by simp [PathSet.toJson], by simp [PathSet.toJson]⟩
  refine ⟨?_, ?_, normal ▸ stays, fun steps => ?_⟩
  · simp [normal, settled, toJson]
  · simp [normal, ofJson, faithful.again, settled]
  · exact (PathSet.takes_read (PathSet.hasPart_of_hasSteps found (steps rfl))).bind_pure rfl

private theorem faithful_named (sound : context.registry.Named) {table : EnumKind} {code : EnumCode}
    (found : EnumCode.ofJson context.registry table json = .ok code) :
    Faithful context (.named table) json (.named code) := by
  obtain ⟨name, shown, toName, again, size⟩ := EnumCode.named_of_ofJson sound found
  have normal : NormalForm.scalar context (.named table) json = .string name := shown
  refine ⟨?_, ?_, normal ▸ stays_string distinctive size, fun _ => ?_⟩
  · simp [normal, settled, toJson, toName]
  · simp [normal, ofJson, again, settled]
  · exact (EnumCode.takes_read_of_ofJson found).bind_pure rfl

/-- Whatever the kind, a value is shown, read again and read back. -/
theorem faithful (sound : context.registry.Named) {kind : ScalarKind} {scalar : Scalar}
    (found : ofJson context json kind = .ok scalar) : Faithful context kind json scalar := by
  cases kind with
  | uint8 =>
      obtain ⟨value, read, rfl⟩ := Outcome.bind_pure_eq_ok.mp found
      exact faithful_uint8 read
  | uint16 =>
      obtain ⟨value, read, rfl⟩ := Outcome.bind_pure_eq_ok.mp found
      exact faithful_uint16 read
  | uint32 =>
      obtain ⟨value, read, rfl⟩ := Outcome.bind_pure_eq_ok.mp found
      exact faithful_uint32 read
  | uint64 =>
      obtain ⟨value, read, rfl⟩ := Outcome.bind_pure_eq_ok.mp found
      exact faithful_uint64 distinctive read
  | hash128 =>
      obtain ⟨value, read, rfl⟩ := Outcome.bind_pure_eq_ok.mp found
      exact faithful_hash distinctive read rfl (fun _ => rfl) ⟨rfl, rfl, rfl⟩ fun _ => rfl
  | hash160 =>
      obtain ⟨value, read, rfl⟩ := Outcome.bind_pure_eq_ok.mp found
      exact faithful_hash distinctive read rfl (fun _ => rfl) ⟨rfl, rfl, rfl⟩ fun _ => rfl
  | hash256 =>
      obtain ⟨value, read, rfl⟩ := Outcome.bind_pure_eq_ok.mp found
      exact faithful_hash distinctive read rfl (fun _ => rfl) ⟨rfl, rfl, rfl⟩ fun _ => rfl
  | amount =>
      obtain ⟨value, read, rfl⟩ := Outcome.bind_pure_eq_ok.mp found
      exact faithful_amount distinctive read
  | blob =>
      obtain ⟨value, read, rfl⟩ := Outcome.bind_pure_eq_ok.mp found
      exact faithful_blob distinctive read
  | account =>
      obtain ⟨value, read, rfl⟩ := Outcome.bind_pure_eq_ok.mp found
      exact faithful_account distinctive read
  | pathSet =>
      obtain ⟨value, read, rfl⟩ := Outcome.bind_pure_eq_ok.mp found
      exact faithful_pathSet distinctive read
  | vector256 =>
      obtain ⟨value, read, rfl⟩ := Outcome.bind_pure_eq_ok.mp found
      exact faithful_vector256 read
  | named table =>
      obtain ⟨value, read, rfl⟩ := Outcome.bind_pure_eq_ok.mp found
      exact faithful_named distinctive sound read

end Texts

end Scalar

end LedgerWire
