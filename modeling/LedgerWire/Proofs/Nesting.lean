import LedgerWire.Proofs.Entries
import LedgerWire.Proofs.Paths

/-!
# Conditions on a whole document

A document is read back from its octets if its objects and arrays are not nested
too deeply, no object has an entry that is written as its own end, and each hop
of its paths has a part.
-/

namespace LedgerWire.Object

variable (context : Context)

/-! ## Depth -/

/-- The greatest of the numbers, zero without any. -/
def greatest (counts : List Nat) : Nat := counts.foldr max 0

theorem greatest_le_iff {counts : List Nat} {bound : Nat} :
    greatest counts ≤ bound ↔ ∀ count ∈ counts, count ≤ bound := by
  induction counts with
  | nil =>
      simp [greatest]
  | cons count rest inductionHypothesis =>
      rw [List.forall_mem_cons, ← inductionHypothesis]
      exact Nat.max_le

theorem greatest_perm {left right : List Nat} (same : left.Perm right) :
    greatest left = greatest right := by
  apply Nat.le_antisymm
  · exact greatest_le_iff.mpr fun count member =>
      greatest_le_iff.mp (Nat.le_refl _) count (same.mem_iff.mp member)
  · exact greatest_le_iff.mpr fun count member =>
      greatest_le_iff.mp (Nat.le_refl _) count (same.mem_iff.mpr member)

/-- How many levels a value takes whose parts take these. -/
def levelsNode (kind : FieldKind) (_ : Json) (parts : List (Field × Nat)) : Nat :=
  match kind with
  | .object => greatest (parts.map (·.2)) + 1
  | .array => greatest (parts.map (·.2)) + 1
  | _ => 0

/-- How many objects and arrays are nested in one another, the value itself
counted. -/
def levels (kind : FieldKind) (value : Json) : Nat := fold context levelsNode kind value

/-- How many objects and arrays are nested in one another inside a document. -/
def nesting (document : Json) : Nat :=
  greatest <| (parts context .object document).map fun part => levels context part.1.kind part.2

theorem levels_scalar (kind : ScalarKind) (value : Json) :
    levels context (.scalar kind) value = 0 := by
  rw [levels, fold_eq]
  rfl

theorem levels_object (value : Json) :
    levels context .object value = nesting context value + 1 := by
  rw [levels, fold_eq, levelsNode, List.map_map]
  rfl

theorem levels_array (value : Json) :
    levels context .array value =
      greatest ((parts context .array value).map fun part =>
        levels context part.1.kind part.2) + 1 := by
  rw [levels, fold_eq, levelsNode, List.map_map]
  rfl

/-! ## Tests of each value -/

/-- Whether a test holds of a value and of all that is written inside. -/
def everywhere (test : FieldKind → Json → Bool) (kind : FieldKind) (value : Json) : Bool :=
  fold context (fun kind value parts => test kind value && parts.all (·.2)) kind value

theorem everywhere_iff {test : FieldKind → Json → Bool} {kind : FieldKind} {value : Json} :
    everywhere context test kind value = true ↔
      test kind value = true ∧
        ∀ part ∈ parts context kind value, everywhere context test part.1.kind part.2 = true := by
  rw [everywhere, fold_eq, Bool.and_eq_true, List.all_map, List.all_eq_true]
  rfl

/-- Whether an object has nothing to be written under the name of its own end. -/
def unmarked : FieldKind → Json → Bool
  | .object, .object entries =>
      entries.all fun
        | (_, .null) => true
        | (key, _) => key != "ObjectEndMarker"
  | _, _ => true

/-- Whether each hop of a set of paths has a part. -/
def stepped : FieldKind → Json → Bool
  | .scalar .pathSet, value => PathSet.hasSteps value
  | _, _ => true

variable {context}

theorem name_ne_of_unmarked {value : Json} (noMark : unmarked .object value = true)
    {part : Field × Json} (member : part ∈ parts context .object value) :
    part.1.name ≠ "ObjectEndMarker" := by
  cases value with
  | object entries =>
      obtain ⟨present, _, _, nonNull⟩ := mem_writtenFields member
      obtain ⟨origin, originMember, shown⟩ := List.mem_flatMap.mp present
      rcases key_of_mem_replaced shown with sameKey | tagged
      · obtain ⟨key, value⟩ := origin
        have checked := List.all_eq_true.mp noMark _ originMember
        have sameName : part.1.name = key := sameKey
        cases value with
        | null =>
            exact absurd (congrArg Prod.snd (List.mem_singleton.mp shown)) nonNull
        | _ =>
            rw [sameName]
            simpa using checked
      · intro marked
        have tagName : tagField? origin.1 = some part.1.name := tagged
        rcases tagField?_eq_some tagName with ⟨_, name⟩ | ⟨_, name⟩
        · exact absurd (name.symm.trans marked) (by decide)
        · exact absurd (name.symm.trans marked) (by decide)
  | _ =>
      cases member

end LedgerWire.Object
