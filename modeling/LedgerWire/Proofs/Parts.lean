import LedgerWire.Object.Encoding
import LedgerWire.Proofs.Outcome

/-!
# The parts of a document

What of a document is written is told by the field it is written for: of an
object the entries with serialized fields, once extended addresses have given
way to classic ones, and of an array the single entries of its items. Every
account of a whole document follows these parts down.
-/

namespace LedgerWire

/-! ## Keys -/

namespace Json

mutual

/-- No object of the document has two entries with one key. -/
def distinctKeys : Json → Bool
  | .array items => distinctKeysOfItems items
  | .object entries => (entries.map (·.1)).Nodup && distinctKeysOfEntries entries
  | _ => true

def distinctKeysOfItems : List Json → Bool
  | [] => true
  | item :: rest => distinctKeys item && distinctKeysOfItems rest

def distinctKeysOfEntries : List (String × Json) → Bool
  | [] => true
  | (_, value) :: rest => distinctKeys value && distinctKeysOfEntries rest

end

theorem distinctKeys_array {items : List Json} :
    (array items).distinctKeys = true ↔ ∀ item ∈ items, item.distinctKeys = true := by
  rw [distinctKeys]
  induction items with
  | nil =>
      simp [distinctKeysOfItems]
  | cons item rest inductionHypothesis =>
      simp [distinctKeysOfItems, inductionHypothesis]

theorem distinctKeys_object {entries : List (String × Json)} :
    (object entries).distinctKeys = true ↔
      (entries.map (·.1)).Nodup ∧ ∀ entry ∈ entries, entry.2.distinctKeys = true := by
  have values : distinctKeysOfEntries entries = true ↔
      ∀ entry ∈ entries, entry.2.distinctKeys = true := by
    induction entries with
    | nil =>
        simp [distinctKeysOfEntries]
    | cons entry rest inductionHypothesis =>
        obtain ⟨key, value⟩ := entry
        rw [distinctKeysOfEntries, Bool.and_eq_true, inductionHypothesis, List.forall_mem_cons]
  rw [distinctKeys, Bool.and_eq_true, values, decide_eq_true_iff]

private theorem depth_lt_of_mem_array {items : List Json} {item : Json} (member : item ∈ items) :
    item.depth < (array items).depth := by
  have bounded : item.depth ≤ depthOfItems items := by
    induction items with
    | nil =>
        cases member
    | cons first rest inductionHypothesis =>
        rw [depthOfItems]
        rcases List.mem_cons.mp member with rfl | later
        · exact Nat.le_max_left _ _
        · exact Nat.le_trans (inductionHypothesis later) (Nat.le_max_right _ _)
  rw [depth]
  omega

private theorem depth_lt_of_mem_object {entries : List (String × Json)} {entry : String × Json}
    (member : entry ∈ entries) : entry.2.depth < (object entries).depth := by
  have bounded : entry.2.depth ≤ depthOfEntries entries := by
    induction entries with
    | nil =>
        cases member
    | cons first rest inductionHypothesis =>
        obtain ⟨key, value⟩ := first
        rw [depthOfEntries]
        rcases List.mem_cons.mp member with rfl | later
        · exact Nat.le_max_left _ _
        · exact Nat.le_trans (inductionHypothesis later) (Nat.le_max_right _ _)
  rw [depth]
  omega

end Json

namespace Object

/-! ## Extended addresses -/

section Expansion

variable (writing : CheckedText)

/-- The entry of the classic address, and that of its tag behind it. -/
def classicEntries (key : String) (address : ExtendedAddress) : List (String × Json) :=
  (key, .string (Address.encodeClassic writing address.account)) ::
    match address.tag, tagField? key with
    | some tag, some field => [(field, Json.ofNat tag.toNat)]
    | _, _ => []

/-- The entries in the place of one: an extended address gives way to the classic
one. -/
def replaced : String × Json → List (String × Json)
  | (key, .string text) =>
      match Address.extended? writing text with
      | none => [(key, .string text)]
      | some address => classicEntries writing key address
  | entry => [entry]

/-- The entries of an object with classic addresses alone. -/
def expanded (entries : List (String × Json)) : List (String × Json) :=
  entries.flatMap (replaced writing)

variable {writing}

/-- Whether a value is written as it is: it is there, and it is no extended
address. -/
def Stays (writing : CheckedText) (value : Json) : Prop :=
  value ≠ .null ∧ ∀ text, value = .string text → Address.extended? writing text = none

theorem expandAddress_eq_ok {entries : List (String × Json)} {key : String}
    {address : ExtendedAddress} {result : List (String × Json)}
    (succeeded : expandAddress writing entries key address = .ok result) :
    result = classicEntries writing key address := by
  unfold expandAddress at succeeded
  unfold classicEntries
  cases tagged : address.tag with
  | none =>
      simp only [tagged, Except.ok.injEq] at succeeded
      exact succeeded.symm
  | some tag =>
      cases place : tagField? key with
      | none =>
          simp [tagged, place] at succeeded
      | some field =>
          simp only [tagged, place] at succeeded
          split at succeeded
          · cases succeeded
          · cases succeeded
            rfl

theorem expandEntry_eq_ok {entries : List (String × Json)} {entry : String × Json}
    {result : List (String × Json)} (succeeded : expandEntry writing entries entry = .ok result) :
    result = replaced writing entry := by
  obtain ⟨key, value⟩ := entry
  cases value with
  | string text =>
      unfold expandEntry at succeeded
      unfold replaced
      cases found : Address.extended? writing text with
      | none =>
          simp only [found, Except.ok.injEq] at succeeded ⊢
          exact succeeded.symm
      | some address =>
          simp only [found] at succeeded ⊢
          exact expandAddress_eq_ok succeeded
  | _ =>
      cases succeeded
      rfl

theorem expand_eq_ok {entries result : List (String × Json)}
    (succeeded : expand writing entries = .ok result) : result = expanded writing entries := by
  obtain ⟨groups, mapped, joined⟩ := Outcome.bind_eq_ok.mp succeeded
  cases joined
  have same : List.Forall₂ (fun entry group => group = replaced writing entry) entries groups :=
    (Outcome.mapM_eq_ok.mp mapped).imp fun _ _ => expandEntry_eq_ok
  rw [expanded, List.flatMap]
  congr 1
  clear succeeded mapped
  induction same with
  | nil =>
      rfl
  | cons head _ inductionHypothesis =>
      rw [List.map_cons, inductionHypothesis, head]

/-- An entry comes from one of the object, or it is a number. -/
theorem mem_expanded {entries : List (String × Json)} {entry : String × Json}
    (member : entry ∈ expanded writing entries) :
    entry ∈ entries ∨ (∃ text, entry.2 = .string text) ∨ ∃ number, entry.2 = .number number := by
  obtain ⟨origin, present, shown⟩ := List.mem_flatMap.mp member
  unfold replaced at shown
  split at shown
  · rename_i key text
    split at shown
    · cases List.mem_singleton.mp shown
      exact .inl present
    · unfold classicEntries at shown
      rcases List.mem_cons.mp shown with rfl | behind
      · exact .inr (.inl ⟨_, rfl⟩)
      · split at behind
        · cases List.mem_singleton.mp behind
          exact .inr (.inr ⟨_, rfl⟩)
        · cases behind
  · cases List.mem_singleton.mp shown
    exact .inl present

end Expansion

/-! ## Parts -/

/-- The field and value of an array's item. -/
def itemPart? (registry : Registry) : Json → Option (Field × Json)
  | .object [(name, value)] => (registry.field? name).map fun field => (field, value)
  | _ => none

variable (context : Context)

/-- The fields and values that are written for a value of a kind. -/
def parts : FieldKind → Json → List (Field × Json)
  | .object, .object entries =>
      writtenFields context.registry false (expanded context.addresses entries)
  | .array, .array items => items.filterMap (itemPart? context.registry)
  | _, _ => []

variable {context}

theorem mem_writtenFields {registry : Registry} {signingOnly : Bool}
    {entries : List (String × Json)} {part : Field × Json}
    (member : part ∈ writtenFields registry signingOnly entries) :
    (part.1.name, part.2) ∈ entries ∧ registry.field? part.1.name = some part.1 ∧
      part.1.serialized = true ∧ part.2 ≠ .null := by
  obtain ⟨⟨key, value⟩, present, written⟩ := List.mem_filterMap.mp member
  obtain ⟨field, found, rfl⟩ := Option.map_eq_some_iff.mp written
  unfold writtenField? at found
  split at found
  · cases found
  · rename_i other value' nonNull same
    cases same
    obtain ⟨known, kept⟩ := Option.filter_eq_some_iff.mp found
    have named : field.name = key := by
      have matched := List.find?_some known
      simpa using matched
    rw [Bool.and_eq_true] at kept
    exact ⟨named.symm ▸ present, named.symm ▸ known, kept.1, nonNull⟩

theorem itemPart?_eq_some {registry : Registry} {item : Json} {part : Field × Json}
    (found : itemPart? registry item = some part) :
    item = .object [(part.1.name, part.2)] ∧ registry.field? part.1.name = some part.1 := by
  unfold itemPart? at found
  split at found
  · rename_i name value
    obtain ⟨field, known, rfl⟩ := Option.map_eq_some_iff.mp found
    have named : field.name = name := by simpa using List.find?_some known
    exact ⟨by rw [named], named.symm ▸ known⟩
  · cases found

theorem field?_of_mem_parts {kind : FieldKind} {value : Json} {part : Field × Json}
    (member : part ∈ parts context kind value) :
    context.registry.field? part.1.name = some part.1 := by
  unfold parts at member
  split at member
  · exact (mem_writtenFields member).2.1
  · obtain ⟨item, _, found⟩ := List.mem_filterMap.mp member
    exact (itemPart?_eq_some found).2
  · cases member

theorem depth_lt_of_mem_parts {kind : FieldKind} {value : Json} {part : Field × Json}
    (member : part ∈ parts context kind value) : part.2.depth < value.depth := by
  unfold parts at member
  split at member
  · rename_i entries
    rcases mem_expanded (mem_writtenFields member).1 with present | ⟨text, leaf⟩ | ⟨number, leaf⟩
    · exact Json.depth_lt_of_mem_object present
    · have positive : 0 < (Json.object entries).depth := by simp [Json.depth]
      rw [show part.2 = .string text from leaf]
      exact positive
    · have positive : 0 < (Json.object entries).depth := by simp [Json.depth]
      rw [show part.2 = .number number from leaf]
      exact positive
  · rename_i items
    obtain ⟨item, present, found⟩ := List.mem_filterMap.mp member
    have outside := Json.depth_lt_of_mem_array present
    rw [(itemPart?_eq_some found).1] at outside
    have alone : (part.1.name, part.2) ∈ [(part.1.name, part.2)] := List.mem_singleton.mpr rfl
    have inside := Json.depth_lt_of_mem_object alone
    dsimp only at inside
    omega
  · cases member

theorem distinctKeys_of_mem_parts {kind : FieldKind} {value : Json} {part : Field × Json}
    (distinct : value.distinctKeys = true) (member : part ∈ parts context kind value) :
    part.2.distinctKeys = true := by
  unfold parts at member
  split at member
  · rcases mem_expanded (mem_writtenFields member).1 with present | ⟨text, leaf⟩ | ⟨number, leaf⟩
    · exact (Json.distinctKeys_object.mp distinct).2 _ present
    · rw [show part.2 = .string text from leaf]
      rfl
    · rw [show part.2 = .number number from leaf]
      rfl
  · obtain ⟨item, present, found⟩ := List.mem_filterMap.mp member
    have inside := Json.distinctKeys_array.mp distinct item present
    rw [(itemPart?_eq_some found).1] at inside
    exact (Json.distinctKeys_object.mp inside).2 _ (List.mem_singleton.mpr rfl)
  · cases member

/-- What holds of a value when it holds of its parts holds of every value. -/
theorem parts_induction {motive : FieldKind → Json → Prop}
    (step : ∀ kind value, (∀ part ∈ parts context kind value, motive part.1.kind part.2) →
      motive kind value) (kind : FieldKind) (value : Json) : motive kind value := by
  induction depth : value.depth using Nat.strongRecOn generalizing kind value with
  | ind bound inductionHypothesis =>
      refine step kind value fun part member => ?_
      exact inductionHypothesis part.2.depth (depth ▸ depth_lt_of_mem_parts member) _ _ rfl

/-! ## Working a value off from its parts -/

section Fold

variable {α : Type} (node : FieldKind → Json → List (Field × α) → α)

variable (context) in
/-- What `node` makes of a value once each part has been worked off. A value of
depth zero has no parts. -/
def foldAt : (depth : Nat) → FieldKind → Json → α
  | 0, kind, value => node kind value []
  | depth + 1, kind, value =>
      node kind value <| (parts context kind value).map fun part =>
        (part.1, foldAt depth part.1.kind part.2)

variable (context) in
def fold (kind : FieldKind) (value : Json) : α :=
  foldAt context node value.depth kind value

private theorem foldAt_eq {depth : Nat} {kind : FieldKind} {value : Json}
    (enough : value.depth ≤ depth) :
    foldAt context node depth kind value =
      node kind value ((parts context kind value).map fun part =>
        (part.1, fold context node part.1.kind part.2)) := by
  induction depth using Nat.strongRecOn generalizing kind value with
  | ind depth inductionHypothesis =>
      cases depth with
      | zero =>
          have none : parts context kind value = [] := by
            refine List.eq_nil_iff_forall_not_mem.mpr fun part member => ?_
            have inside := depth_lt_of_mem_parts member
            omega
          rw [foldAt, none, List.map_nil]
      | succ depth =>
          rw [foldAt]
          congr 1
          refine List.map_congr_left fun part member => ?_
          have inside := depth_lt_of_mem_parts member
          rw [fold, inductionHypothesis depth (by omega) (by omega),
            inductionHypothesis part.2.depth (by omega) (Nat.le_refl _)]

theorem fold_eq (kind : FieldKind) (value : Json) :
    fold context node kind value =
      node kind value ((parts context kind value).map fun part =>
        (part.1, fold context node part.1.kind part.2)) :=
  foldAt_eq node (Nat.le_refl _)

end Fold

end Object

end LedgerWire
