import LedgerWire.Proofs.DecodedDocuments
import LedgerWire.Proofs.WritingAgain

/-!
# Documents that are restored

A document that was decoded is encoded, and it is in normal form, just if each of
its amounts may be given, the items of its arrays are objects, and no change of
validators has an account. This is asked of documents for whose octets lengths can
be written.
-/

namespace LedgerWire

theorem Json.string?_eq_some {value : Json} {text : String} :
    value.string? = some text ↔ value = .string text := by
  cases value with
  | string other =>
      simp [string?]
  | _ =>
      simp [string?]

namespace Object

variable (context : Context)

/-! ## What is asked -/

/-- Whether a length can be written for the octets of a value, if it needs one. -/
def measured : FieldKind → Json → Bool
  | .scalar kind, value => Scalar.measured kind value
  | _, _ => true

/-- Whether a value that was decoded is written so that it is read as itself: an
amount may be given, a change of validators has no account but the zero account,
and the items of an array are objects. -/
def rewritable : FieldKind → Json → Bool
  | .scalar .amount, value => Amount.givable value
  | .object, .object entries =>
      !changesValidators context.registry entries ||
        (entries.lookup "Account").all fun account =>
          account.string? == some (Address.encodeClassic context.addresses (Hash.zero 20))
  | .array, .array items =>
      items.all fun item =>
        (itemPart? context.registry item).any fun part => part.1.kind = .object
  | _, _ => true

variable {context}

/-! ## What holds in any case -/

private theorem parts_scalar (kind : ScalarKind) (value : Json) :
    parts context (.scalar kind) value = [] := by
  unfold parts
  rfl

private theorem stays_of_shown (sound : context.Sound) {room : Nat} {kind : FieldKind}
    {shown : Json} (given : Shown context room kind shown) : Stays context.addresses shown := by
  cases given with
  | scalar legible shows =>
      exact Scalar.stays_of_legible sound.addresses sound.registry.toNamed legible shows
  | object =>
      exact stays_object _ _
  | array =>
      exact ⟨Json.noConfusion, fun _ => Json.noConfusion⟩

theorem Known.serialized {marker : String} {field : Field} (known : Known context marker field) :
    field.serialized = true := by
  have headed := known.headed
  unfold Field.header at headed
  split at headed
  · rename_i fits
    exact fits.1
  · exact absurd rfl headed

section Parts

variable {marker : String} {room : Nat} {items : List (Field × Json)} (sound : context.Sound)
  (known : ∀ part ∈ items, Known context marker part.1)
  (inside : ∀ part ∈ items, Shown context room part.1.kind part.2)

include sound inside

private theorem expand_entriesOf :
    expand context.addresses (entriesOf items) = .ok (entriesOf items) := by
  apply expand_of_stays
  intro entry member
  obtain ⟨part, present, rfl⟩ := List.mem_map.mp member
  exact stays_of_shown sound (inside part present)

private theorem expanded_entriesOf :
    expanded context.addresses (entriesOf items) = entriesOf items :=
  (expand_eq_ok (expand_entriesOf sound inside)).symm

include known

/-- The parts of an object that was decoded are the fields that it shows. -/
theorem parts_entriesOf : parts context .object (.object (entriesOf items)) = items := by
  rw [parts, expanded_entriesOf sound inside]
  apply writtenFields_named
  intro part member
  have field := known part member
  exact ⟨field.found, field.serialized, (stays_of_shown sound (inside part member)).1⟩

omit sound inside in
private theorem parts_wrapped :
    parts context .array (.array (items.map fun part => .object [(part.1.name, part.2)])) =
      items := by
  rw [parts]
  induction items with
  | nil =>
      rfl
  | cons part items inductionHypothesis =>
      have first : itemPart? context.registry (.object [(part.1.name, part.2)]) = some part := by
        rw [itemPart?, (known part List.mem_cons_self).found]
        rfl
      rw [List.map_cons, List.filterMap_cons_some first, inductionHypothesis fun other member =>
        known other (List.mem_cons_of_mem part member)]

end Parts

private theorem readable_scalar (sound : context.Sound) {kind : ScalarKind} {value : Scalar}
    {shown : Json} (legible : Scalar.Legible kind value)
    (shows : value.toJson context = .ok shown) : Readable context (.scalar kind) shown where
  distinct := Scalar.distinctKeys_shown shows
  unmarked := by
    rw [everywhere_iff, parts_scalar]
    exact ⟨rfl, fun part => nofun⟩
  stepped := by
    rw [everywhere_iff, parts_scalar]
    refine ⟨?_, fun part => nofun⟩
    cases legible with
    | pathSet settled stepped =>
        cases shows
        exact PathSet.hasSteps_toJson sound.addresses stepped
    | _ =>
        rfl

private theorem readable_entriesOf {items : List (Field × Json)}
    (same : parts context .object (.object (entriesOf items)) = items)
    (known : ∀ part ∈ items, Known context "ObjectEndMarker" part.1)
    (ascending : Json.Ascending (entriesOf items))
    (each : ∀ part ∈ items, Readable context part.1.kind part.2) :
    Readable context .object (.object (entriesOf items)) where
  distinct := by
    rw [Json.distinctKeys_object]
    refine ⟨Json.nodup_of_ascending ascending, fun entry member => ?_⟩
    obtain ⟨part, present, rfl⟩ := List.mem_map.mp member
    exact (each part present).distinct
  unmarked := by
    rw [everywhere_iff, same]
    refine ⟨List.all_eq_true.mpr fun entry member => ?_, fun part member =>
      (each part member).unmarked⟩
    obtain ⟨part, present, rfl⟩ := List.mem_map.mp member
    have unmarked := (known part present).unmarked
    split
    · rfl
    · rename_i key value other same
      cases same
      exact bne_iff_ne.mpr unmarked
  stepped := by
    rw [everywhere_iff, same]
    exact ⟨rfl, fun part member => (each part member).stepped⟩

private theorem readable_wrapped {items : List (Field × Json)}
    (known : ∀ part ∈ items, Known context "ArrayEndMarker" part.1)
    (each : ∀ part ∈ items, Readable context part.1.kind part.2) :
    Readable context .array
      (.array (items.map fun part => .object [(part.1.name, part.2)])) where
  distinct := by
    rw [Json.distinctKeys_array, List.forall_mem_map]
    intro part member
    rw [Json.distinctKeys_object]
    refine ⟨List.nodup_singleton _, fun entry alone => ?_⟩
    rw [List.mem_singleton.mp alone]
    exact (each part member).distinct
  unmarked := by
    rw [everywhere_iff, parts_wrapped known]
    exact ⟨rfl, fun part member => (each part member).unmarked⟩
  stepped := by
    rw [everywhere_iff, parts_wrapped known]
    exact ⟨rfl, fun part member => (each part member).stepped⟩

/-- A document that was decoded is read back if it is encoded. -/
theorem readable_of_shown (sound : context.Sound) {room : Nat} {kind : FieldKind} {shown : Json}
    (given : Shown context room kind shown) :
    Readable context kind shown ∧ levels context kind shown ≤ room := by
  induction given with
  | @scalar room kind value shown legible shows =>
      refine ⟨readable_scalar sound legible shows, ?_⟩
      rw [levels_scalar]
      exact Nat.zero_le room
  | @object room items known ascending inside inductionHypothesis =>
      have same := parts_entriesOf sound known inside
      refine ⟨readable_entriesOf same known ascending fun part member =>
        (inductionHypothesis part member).1, ?_⟩
      rw [levels_object, nesting, same]
      apply Nat.succ_le_succ
      rw [greatest_le_iff, List.forall_mem_map]
      exact fun part member => (inductionHypothesis part member).2
  | @array room items known inside inductionHypothesis =>
      refine ⟨readable_wrapped known fun part member => (inductionHypothesis part member).1, ?_⟩
      rw [levels_array, parts_wrapped known]
      apply Nat.succ_le_succ
      rw [greatest_le_iff, List.forall_mem_map]
      exact fun part member => (inductionHypothesis part member).2

/-! ## Fields that are written -/

private theorem exists_segment (sound : context.Sound) {field : Field}
    (member : field ∈ context.registry.fields) (headed : field.header ≠ []) {value : Json}
    {bytes : Bytes} (valueWritten : fieldValueBytes context field value = .ok bytes)
    (short : field.kind.sized = true → bytes.length ≤ Length.greatest) :
    ∃ written, segment (fieldValueBytes context) field value false = .ok written := by
  have framed := sound.registry.framed member headed
  cases prefixed : field.lengthPrefixed with
  | true =>
      obtain ⟨body, bodyWritten⟩ := Length.exists_frame (short (framed ▸ prefixed))
      refine ⟨⟨field, body⟩, segment_eq_ok.mpr ⟨headed, rfl, ?_⟩⟩
      rw [prefixed, if_pos rfl]
      exact ⟨bytes, valueWritten, bodyWritten⟩
  | false =>
      refine ⟨⟨field, if field.kind = .object then bytes ++ [objectEnd] else bytes⟩,
        segment_eq_ok.mpr ⟨headed, rfl, ?_⟩⟩
      rw [prefixed, if_neg (by decide)]
      exact ⟨bytes, valueWritten, rfl⟩

theorem exists_segment_iff (sound : context.Sound) {field : Field}
    (member : field ∈ context.registry.fields) (headed : field.header ≠ [])
    (unsized : field.kind.sized = false) (value : Json) :
    (∃ written, segment (fieldValueBytes context) field value false = .ok written) ↔
      ∃ bytes, valueBytesWith context (fieldValueBytes context) field value = .ok bytes := by
  rw [← fieldValueBytes_eq]
  constructor
  · rintro ⟨written, segmented⟩
    exact value_of_segment segmented
  · rintro ⟨bytes, valueWritten⟩
    apply exists_segment sound member headed valueWritten
    rw [unsized]
    exact nofun

/-- The account of a change of validators is written whatever it is. -/
theorem exists_omitted (sound : context.Sound) {field : Field}
    (member : field ∈ context.registry.fields) (headed : field.header ≠ [])
    (named : field.name = "Account") (value : Json) :
    ∃ written, segment (fieldValueBytes context) field value true = .ok written := by
  have prefixed : field.lengthPrefixed = true := by
    rw [sound.registry.framed member headed, sound.registry.account member named]
    rfl
  have short : ([] : Bytes).length ≤ Length.greatest := Nat.zero_le _
  obtain ⟨body, bodyWritten⟩ := Length.exists_frame short
  refine ⟨⟨field, body⟩, segment_eq_ok.mpr ⟨headed, rfl, ?_⟩⟩
  rw [prefixed, if_pos rfl]
  exact ⟨[], rfl, bodyWritten⟩

/-- A value is written for a field, and it is in normal form. -/
def Restored (context : Context) (field : Field) (value : Json) : Prop :=
  NormalForm.value context field.kind value = value ∧
    ∃ written, segment (fieldValueBytes context) field value false = .ok written

section Scalars

variable (sound : context.Sound) {field : Field} (member : field ∈ context.registry.fields)
  (headed : field.header ≠ []) {kind : ScalarKind} (isScalar : field.kind = .scalar kind)
  {value : Scalar} {shown : Json} (legible : Scalar.Legible kind value)
  (shows : value.toJson context = .ok shown)

include sound member headed isScalar legible shows

theorem restored_scalar_iff (lengths : Scalar.measured kind shown = true) :
    rewritable context (.scalar kind) shown = true ↔ Restored context field shown := by
  constructor
  · intro asked
    have fits : kind = .amount → Amount.givable shown = true := by
      rintro rfl
      exact asked
    obtain ⟨again, takenAgain⟩ := Scalar.takenAgain_of_legible sound.addresses
      sound.registry.toNamed legible shows fits lengths
    constructor
    · rw [isScalar, NormalForm.value_scalar]
      exact takenAgain.normal sound.addresses sound.registry.toNamed
    · apply exists_segment sound member headed
        ((fieldValueBytes_scalar isScalar).mpr ⟨again, takenAgain.taken, rfl⟩)
      rw [isScalar]
      exact takenAgain.sized
  · rintro ⟨_, written, segmented⟩
    obtain ⟨bytes, valueWritten⟩ := value_of_segment segmented
    obtain ⟨again, taken, _⟩ := (fieldValueBytes_scalar isScalar).mp valueWritten
    cases legible with
    | amount amount =>
        cases shows
        obtain ⟨given, givenTaken, _⟩ := Outcome.bind_pure_eq_ok.mp taken
        exact Amount.givable_of_ofJson givenTaken
    | _ =>
        rfl

end Scalars

/-! ## Objects and arrays -/

section Objects

variable (sound : context.Sound) {room : Nat} {items : List (Field × Json)}
  (known : ∀ part ∈ items, Known context "ObjectEndMarker" part.1)
  (ascending : Json.Ascending (entriesOf items))
  (inside : ∀ part ∈ items, Shown context room part.1.kind part.2)

/-- Whether a part of an object that was decoded is an account without a value. -/
def omitted (context : Context) (items : List (Field × Json)) (part : Field × Json) : Bool :=
  changesValidators context.registry (entriesOf items) && part.1.name == "Account"

include sound known ascending inside

/-- An object that was decoded is in normal form just if each of its entries is. -/
theorem normal_entriesOf_iff :
    NormalForm.value context .object (.object (entriesOf items)) = .object (entriesOf items) ↔
      ∀ part ∈ items,
        shownAs context (omitted context items part) part.1.kind part.2 = part.2 := by
  have again : Json.Ascending (items.map fun part => NormalForm.entry context
      (changesValidators context.registry (entriesOf items)) part.1
        (NormalForm.value context part.1.kind part.2)) := by
    rw [Json.Ascending, List.map_map] at ascending ⊢
    exact ascending
  rw [NormalForm.value_object, parts_entriesOf sound known inside, NormalForm.omitsAccount,
    expanded_entriesOf sound inside, Json.ofEntries_of_ascending again,
    Json.object.injEq, List.map_inj_left]
  refine forall₂_congr fun part _ => ?_
  rw [NormalForm.entry, Prod.mk.injEq]
  exact and_iff_right rfl

omit ascending in
/-- An object that was decoded is written just if each of its parts is. -/
theorem exists_objectBytes_iff :
    (∃ bytes, objectBytes context (fieldValueBytes context) false (.object (entriesOf items)) =
        .ok bytes) ↔
      ∀ part ∈ items, ∃ one,
        segment (fieldValueBytes context) part.1 part.2 (omitted context items part) =
          .ok one := by
  have order := orderedParts_perm context (entriesOf items)
  rw [parts_entriesOf sound known inside] at order
  constructor
  · rintro ⟨bytes, given⟩ part member
    obtain ⟨_, written, same, segmented, _⟩ := objectBytes_eq_ok.mp given
    cases same
    obtain ⟨_, related⟩ := segments_eq_ok.mp segmented
    obtain ⟨one, _, partSegmented⟩ :=
      Outcome.exists_of_mem_left related (order.mem_iff.mpr member)
    rw [expanded_entriesOf sound inside] at partSegmented
    exact ⟨one, partSegmented⟩
  · intro each
    obtain ⟨written, related⟩ := Outcome.exists_forall₂ fun part member =>
      each part (order.mem_iff.mp member)
    refine ⟨_, objectBytes_eq_ok.mpr ⟨_, written, rfl, segments_eq_ok.mpr
      ⟨⟨_, expand_entriesOf sound inside⟩, ?_⟩, rfl⟩⟩
    rw [orderedParts, expanded_entriesOf sound inside] at related
    rwa [expanded_entriesOf sound inside]

omit sound known inside in
/-- The part that is written without a value is the entry for the account. -/
theorem omitted_iff (value : Json) :
    (∀ part ∈ items, omitted context items part = true → part.2 = value) ↔
      (changesValidators context.registry (entriesOf items) = true →
        ∀ account, (entriesOf items).lookup "Account" = some account → account = value) := by
  constructor
  · intro each changes account found
    obtain ⟨part, member, same⟩ := List.mem_map.mp (mem_of_lookup found)
    obtain ⟨named, rfl⟩ := Prod.mk.inj same
    exact each part member (Bool.and_eq_true_iff.mpr ⟨changes, beq_iff_eq.mpr named⟩)
  · intro only part member isOmitted
    obtain ⟨changes, named⟩ := Bool.and_eq_true_iff.mp isOmitted
    have present : (part.1.name, part.2) ∈ entriesOf items := List.mem_map_of_mem member
    rw [beq_iff_eq.mp named] at present
    exact only changes part.2 (lookup_of_mem (Json.nodup_of_ascending ascending) present)

omit sound known inside in
theorem rewritable_entriesOf_iff :
    rewritable context .object (.object (entriesOf items)) = true ↔
      ∀ part ∈ items, omitted context items part = true →
        part.2 = Account.toJson context.addresses (Hash.zero 20) := by
  rw [omitted_iff ascending, rewritable, Bool.or_eq_true, Bool.not_eq_true',
    ← Bool.not_eq_true, ← imp_iff_not_or, Option.all_eq_true]
  refine forall_congr' fun changes => forall₂_congr fun account found => ?_
  rw [beq_iff_eq, Json.string?_eq_some, Account.toJson]

/-- An object that was decoded is written, and it is in normal form, just if what is
asked of it and of its parts holds. -/
theorem restored_object_iff
    (each : ∀ part ∈ items, everywhere context (rewritable context) part.1.kind part.2 = true ↔
      Restored context part.1 part.2) :
    everywhere context (rewritable context) .object (.object (entriesOf items)) = true ↔
      NormalForm.value context .object (.object (entriesOf items)) = .object (entriesOf items) ∧
        ∃ bytes, objectBytes context (fieldValueBytes context) false
            (.object (entriesOf items)) = .ok bytes := by
  rw [everywhere_iff, parts_entriesOf sound known inside, rewritable_entriesOf_iff ascending,
    normal_entriesOf_iff sound known ascending inside, exists_objectBytes_iff sound known inside,
    ← forall₂_and, ← forall₂_and]
  refine forall₂_congr fun part member => ?_
  cases isOmitted : omitted context items part with
  | false =>
      rw [each part member, Restored, shownAs, if_neg Bool.false_ne_true, and_iff_right]
      intro impossible
      cases impossible
  | true =>
      have field := known part member
      have named : part.1.name = "Account" := beq_iff_eq.mp (Bool.and_eq_true_iff.mp isOmitted).2
      have unasked : everywhere context (rewritable context) part.1.kind part.2 = true := by
        rw [sound.registry.account field.member named, everywhere_iff, parts_scalar]
        refine ⟨rfl, fun part member => ?_⟩
        exact absurd member List.not_mem_nil
      have written := exists_omitted sound field.member field.headed named part.2
      rw [shownAs, if_pos rfl, and_iff_left unasked, and_iff_left written]
      exact ⟨fun zero => (zero rfl).symm, fun same _ => same.symm⟩

end Objects

section Arrays

variable {items : List (Field × Json)}
  (known : ∀ part ∈ items, Known context "ArrayEndMarker" part.1)

/-- The items of an array that was decoded. -/
abbrev wrapped (items : List (Field × Json)) : List Json :=
  items.map fun part => .object [(part.1.name, part.2)]

include known

theorem normal_wrapped_iff :
    NormalForm.value context .array (.array (wrapped items)) = .array (wrapped items) ↔
      ∀ part ∈ items, NormalForm.value context part.1.kind part.2 = part.2 := by
  rw [NormalForm.value_array, parts_wrapped known, Json.array.injEq, List.map_inj_left]
  refine forall₂_congr fun part _ => ?_
  simp

theorem rewritable_wrapped_iff :
    rewritable context .array (.array (wrapped items)) = true ↔
      ∀ part ∈ items, part.1.kind = .object := by
  rw [rewritable, List.all_eq_true, List.forall_mem_map]
  refine forall₂_congr fun part member => ?_
  rw [itemPart?, (known part member).found]
  exact decide_eq_true_iff

theorem exists_arrayBytes_iff :
    (∃ bytes, arrayBytes context (fieldValueBytes context) (.array (wrapped items)) = .ok bytes) ↔
      ∀ part ∈ items, part.1.kind = .object ∧
        ∃ one, segment (fieldValueBytes context) part.1 part.2 false = .ok one := by
  constructor
  · rintro ⟨bytes, given⟩ part member
    obtain ⟨_, written, same, related, _⟩ := arrayBytes_eq_ok.mp given
    cases same
    have segments := forall₂_parts_of_items related
    rw [parts_wrapped known] at segments
    obtain ⟨one, _, isObject, segmented⟩ := Outcome.exists_of_mem_left segments member
    exact ⟨isObject, one, segmented⟩
  · intro each
    obtain ⟨written, related⟩ : ∃ written, List.Forall₂ (fun item one =>
        itemSegment context.registry (fieldValueBytes context) item = .ok one)
          (wrapped items) written := by
      apply Outcome.exists_forall₂
      rw [List.forall_mem_map]
      intro part member
      obtain ⟨isObject, one, segmented⟩ := each part member
      refine ⟨one, itemSegment_eq_ok.mpr ⟨part, ?_, isObject, segmented⟩⟩
      rw [itemPart?, (known part member).found]
      rfl
    exact ⟨_, arrayBytes_eq_ok.mpr ⟨_, written, rfl, related, rfl⟩⟩

/-- An array that was decoded is written, and it is in normal form, just if its items are
objects and what is asked of them holds. -/
theorem restored_array_iff
    (each : ∀ part ∈ items, everywhere context (rewritable context) part.1.kind part.2 = true ↔
      Restored context part.1 part.2) :
    everywhere context (rewritable context) .array (.array (wrapped items)) = true ↔
      NormalForm.value context .array (.array (wrapped items)) = .array (wrapped items) ∧
        ∃ bytes, arrayBytes context (fieldValueBytes context) (.array (wrapped items)) =
          .ok bytes := by
  rw [everywhere_iff, parts_wrapped known, rewritable_wrapped_iff known, normal_wrapped_iff known,
    exists_arrayBytes_iff known, ← forall₂_and, ← forall₂_and]
  refine forall₂_congr fun part member => ?_
  rw [each part member, Restored]
  exact and_left_comm

end Arrays

/-! ## Values at any depth -/

/-- What is asked of a value of this kind decides whether it is written for a field and
in normal form. -/
def Decided (context : Context) (kind : FieldKind) (value : Json) : Prop :=
  everywhere context measured kind value = true →
    ∀ {field : Field}, field ∈ context.registry.fields → field.header ≠ [] → field.kind = kind →
      (everywhere context (rewritable context) kind value = true ↔ Restored context field value)

theorem restored_parts_iff {marker : String} {items : List (Field × Json)}
    (known : ∀ part ∈ items, Known context marker part.1) {kind : FieldKind} {value : Json}
    (same : parts context kind value = items)
    (lengths : everywhere context measured kind value = true)
    (inside : ∀ part ∈ items, Decided context part.1.kind part.2) :
    ∀ part ∈ items, everywhere context (rewritable context) part.1.kind part.2 = true ↔
      Restored context part.1 part.2 := by
  intro part member
  have short := ((everywhere_iff context).mp lengths).2 part (same ▸ member)
  exact inside part member short (known part member).member (known part member).headed rfl

private theorem decided_of_shown (sound : context.Sound) {room : Nat} {kind : FieldKind}
    {shown : Json} (given : Shown context room kind shown) : Decided context kind shown := by
  induction given with
  | @scalar room kind value shown legible shows =>
      intro lengths field member headed isScalar
      have short : Scalar.measured kind shown = true := ((everywhere_iff context).mp lengths).1
      rw [← restored_scalar_iff sound member headed isScalar legible shows short, everywhere_iff,
        parts_scalar]
      exact and_iff_left fun part => nofun
  | @object room items known ascending inside inductionHypothesis =>
      intro lengths field member headed isObject
      have each := restored_parts_iff known (parts_entriesOf sound known inside) lengths
        inductionHypothesis
      have unsized : field.kind.sized = false := by
        rw [isObject]
        rfl
      rw [restored_object_iff sound known ascending inside each, Restored,
        exists_segment_iff sound member headed unsized, valueBytesWith, isObject]
  | @array room items known inside inductionHypothesis =>
      intro lengths field member headed isArray
      have each := restored_parts_iff known (parts_wrapped known) lengths inductionHypothesis
      have unsized : field.kind.sized = false := by
        rw [isArray]
        rfl
      rw [restored_array_iff known each, Restored, exists_segment_iff sound member headed unsized,
        valueBytesWith, isArray]

/-- A change of validators in normal form has the zero account, if it has one. -/
theorem account_of_normal (sound : context.Sound) {room : Nat} {entries : List (String × Json)}
    (given : Shown context room .object (.object entries))
    (changes : changesValidators context.registry entries = true)
    (normal : NormalForm.document context (.object entries) = .object entries) {account : Json}
    (found : entries.lookup "Account" = some account) :
    account = Account.toJson context.addresses (Hash.zero 20) := by
  generalize same : Json.object entries = shown at given
  cases given with
  | object known ascending inside =>
      cases same
      have shown := (normal_entriesOf_iff sound known ascending inside).mp normal
      refine (omitted_iff ascending _).mp (fun part member isOmitted => ?_) changes account found
      rw [← shown part member, isOmitted, shownAs, if_pos rfl]

/-- A document that was decoded is encoded, and it is in normal form, just if what is
asked of it holds. -/
theorem restored_document_iff (sound : context.Sound) {room : Nat} {shown : Json}
    (given : Shown context room .object shown)
    (lengths : everywhere context measured .object shown = true) :
    everywhere context (rewritable context) .object shown = true ↔
      NormalForm.document context shown = shown ∧
        ∃ bytes, encode context false shown = .ok bytes := by
  cases given with
  | object known ascending inside =>
      have each := restored_parts_iff known (parts_entriesOf sound known inside) lengths
        fun part member => decided_of_shown sound (inside part member)
      exact restored_object_iff sound known ascending inside each

end Object

end LedgerWire
