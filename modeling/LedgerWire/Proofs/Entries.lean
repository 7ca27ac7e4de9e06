import LedgerWire.Proofs.Writing

/-!
# Entries with distinct keys

The order of entries with distinct keys does not count, and the names of the
fields that are written are distinct when the keys of the document are.
-/

namespace LedgerWire

theorem lookup_of_mem {α : Type} {entries : List (String × α)}
    (distinct : (entries.map (·.1)).Nodup) {key : String} {value : α}
    (member : (key, value) ∈ entries) : entries.lookup key = some value := by
  induction entries with
  | nil =>
      cases member
  | cons first rest inductionHypothesis =>
      rw [List.map_cons, List.nodup_cons] at distinct
      rcases List.mem_cons.mp member with rfl | later
      · exact List.lookup_cons_self
      · have other : (key == first.1) = false := by
          rw [beq_eq_false_iff_ne]
          rintro rfl
          exact distinct.1 (List.mem_map.mpr ⟨_, later, rfl⟩)
        rw [List.lookup_cons, other]
        exact inductionHypothesis distinct.2 later

theorem mem_of_lookup {α : Type} {entries : List (String × α)} {key : String} {value : α}
    (found : entries.lookup key = some value) : (key, value) ∈ entries := by
  obtain ⟨before, behind, split, _⟩ := List.lookup_eq_some_iff.mp found
  rw [split]
  exact List.mem_append_right before List.mem_cons_self

theorem lookup_eq_some_iff {α : Type} {entries : List (String × α)}
    (distinct : (entries.map (·.1)).Nodup) {key : String} {value : α} :
    entries.lookup key = some value ↔ (key, value) ∈ entries :=
  ⟨mem_of_lookup, lookup_of_mem distinct⟩

theorem lookup_perm {α : Type} {left right : List (String × α)}
    (distinct : (left.map (·.1)).Nodup) (same : left.Perm right) (key : String) :
    left.lookup key = right.lookup key := by
  have rightDistinct : (right.map (·.1)).Nodup := (same.map _).nodup_iff.mp distinct
  apply Option.ext
  intro value
  rw [lookup_eq_some_iff distinct, lookup_eq_some_iff rightDistinct, same.mem_iff]

/-! ## Objects from entries -/

namespace Json

abbrev KeyNotAbove (left right : String × Json) : Prop := left.1 ≤ right.1

instance : Std.Total KeyNotAbove := ⟨fun left right => String.le_total left.1 right.1⟩

instance : IsTrans (String × Json) KeyNotAbove := ⟨fun _ _ _ => String.le_trans⟩

theorem addEntry_eq {key : String} {value : Json} {entries : List (String × Json)}
    (absent : key ∉ entries.map (·.1)) :
    addEntry key value entries = entries.orderedInsert KeyNotAbove (key, value) := by
  induction entries with
  | nil =>
      rfl
  | cons first rest inductionHypothesis =>
      obtain ⟨other, held⟩ := first
      rw [List.map_cons, List.mem_cons, not_or] at absent
      rw [addEntry, List.orderedInsert_cons, inductionHypothesis absent.2, if_neg absent.1]
      by_cases below : key < other
      · have notAbove : key ≤ other := String.not_lt.mp (String.lt_asymm below)
        rw [if_pos below, if_pos notAbove]
      · have above : ¬ key ≤ other := fun notAbove =>
          absent.1 (String.le_antisymm notAbove (String.not_lt.mp below))
        rw [if_neg below, if_neg above]

/-- Entries with distinct keys are put in the order of their keys. -/
theorem ofEntries_eq {entries : List (String × Json)} (distinct : (entries.map (·.1)).Nodup) :
    ofEntries entries = .object (entries.insertionSort KeyNotAbove) := by
  rw [ofEntries]
  congr 1
  induction entries with
  | nil =>
      rfl
  | cons entry rest inductionHypothesis =>
      rw [List.map_cons, List.nodup_cons] at distinct
      rw [List.foldr_cons, inductionHypothesis distinct.2, List.insertionSort_cons]
      refine addEntry_eq fun present => distinct.1 ?_
      exact ((List.perm_insertionSort KeyNotAbove rest).map (·.1)).mem_iff.mp present

theorem ofEntries_perm {left right : List (String × Json)} (same : left.Perm right)
    (distinct : (left.map (·.1)).Nodup) : ofEntries left = ofEntries right := by
  rw [ofEntries_eq distinct, ofEntries_eq ((same.map (·.1)).nodup_iff.mp distinct)]
  congr 1
  refine List.Perm.eq_of_pairwise (fun one other inLeft inRight below above => ?_)
    (List.pairwise_insertionSort KeyNotAbove left)
    (List.pairwise_insertionSort KeyNotAbove right) ?_
  · have keys : one.1 = other.1 := String.le_antisymm below above
    have inLeft' : one ∈ left := (List.mem_insertionSort KeyNotAbove).mp inLeft
    have inRight' : other ∈ left :=
      same.mem_iff.mpr ((List.mem_insertionSort KeyNotAbove).mp inRight)
    exact List.inj_on_of_nodup_map distinct inLeft' inRight' keys
  · exact ((List.perm_insertionSort _ left).trans same).trans (List.perm_insertionSort _ right).symm

end Json

namespace Object

/-! ## Keys of expanded entries -/

variable {writing : CheckedText}

theorem key_of_mem_replaced {entry shown : String × Json}
    (member : shown ∈ replaced writing entry) :
    shown.1 = entry.1 ∨ tagField? entry.1 = some shown.1 := by
  unfold replaced at member
  split at member
  · split at member
    · rw [List.mem_singleton.mp member]
      exact .inl rfl
    · unfold classicEntries at member
      rcases List.mem_cons.mp member with rfl | behind
      · exact .inl rfl
      · split at behind
        · rename_i found
          rw [List.mem_singleton.mp behind]
          exact .inr found
        · cases behind
  · rw [List.mem_singleton.mp member]
    exact .inl rfl

theorem tagField?_eq_some {key field : String} (found : tagField? key = some field) :
    (key = "Account" ∧ field = "SourceTag") ∨ (key = "Destination" ∧ field = "DestinationTag") := by
  unfold tagField? at found
  split at found
  · exact .inl ⟨rfl, (Option.some.inj found).symm⟩
  · exact .inr ⟨rfl, (Option.some.inj found).symm⟩
  · cases found

private theorem nodup_keys_replaced (writing : CheckedText) (entry : String × Json) :
    ((replaced writing entry).map (·.1)).Nodup := by
  unfold replaced
  split
  · split
    · exact List.nodup_singleton _
    · unfold classicEntries
      split
      · rename_i found
        rcases tagField?_eq_some found with ⟨rfl, rfl⟩ | ⟨rfl, rfl⟩
        · change ["Account", "SourceTag"].Nodup
          decide
        · change ["Destination", "DestinationTag"].Nodup
          decide
      · exact List.nodup_singleton _
  · exact List.nodup_singleton _

/-- A tag is put only where there is no entry for it. -/
theorem absent_of_expandEntry {entries : List (String × Json)} {entry : String × Json}
    {result : List (String × Json)}
    (succeeded : expandEntry writing entries entry = .ok result) {shown : String × Json}
    (member : shown ∈ result) (other : shown.1 ≠ entry.1) : shown.1 ∉ entries.map (·.1) := by
  unfold expandEntry at succeeded
  split at succeeded
  · split at succeeded
    · unfold expandAddress at succeeded
      dsimp only at succeeded
      split at succeeded
      · cases succeeded
        rw [List.mem_singleton.mp member] at other
        exact absurd rfl other
      · split at succeeded
        · cases succeeded
        · split at succeeded
          · cases succeeded
          · rename_i conflict
            cases succeeded
            rcases List.mem_cons.mp member with rfl | behind
            · exact absurd rfl other
            · rw [List.mem_singleton.mp behind]
              intro present
              obtain ⟨held, heldMember, same⟩ := List.mem_map.mp present
              exact conflict (List.lookup_isSome_iff.mpr ⟨held, heldMember, by simp [same]⟩)
    · cases succeeded
      rw [List.mem_singleton.mp member] at other
      exact absurd rfl other
  · cases succeeded
    rw [List.mem_singleton.mp member] at other
    exact absurd rfl other

/-- A key that two entries shared once they are expanded would be the tag of both. -/
theorem nodup_keys_expanded {entries result : List (String × Json)}
    (succeeded : expand writing entries = .ok result)
    (distinct : (entries.map (·.1)).Nodup) :
    ((expanded writing entries).map (·.1)).Nodup := by
  obtain ⟨groups, mapped, _⟩ := Outcome.bind_eq_ok.mp succeeded
  have absent : ∀ entry ∈ entries, ∀ shown ∈ replaced writing entry, shown.1 ≠ entry.1 →
      shown.1 ∉ entries.map (·.1) := by
    intro entry member shown shownMember other
    obtain ⟨group, _, given⟩ := Outcome.exists_of_mem_left (Outcome.mapM_eq_ok.mp mapped) member
    rw [← expandEntry_eq_ok given] at shownMember
    exact absent_of_expandEntry given shownMember other
  rw [expanded, List.map_flatMap, List.nodup_flatMap]
  refine ⟨fun entry _ => nodup_keys_replaced writing entry, ?_⟩
  have pairs : entries.Pairwise fun left right => left.1 ≠ right.1 := List.pairwise_map.mp distinct
  refine pairs.imp_of_mem fun {left right} leftMember rightMember differ => ?_
  intro key inLeft inRight
  obtain ⟨one, oneMember, rfl⟩ := List.mem_map.mp inLeft
  obtain ⟨other, otherMember, same⟩ := List.mem_map.mp inRight
  have leftAbsent := absent left leftMember one oneMember
  have rightAbsent := absent right rightMember other otherMember
  rcases key_of_mem_replaced oneMember with leftKey | leftTag
  · by_cases rightKey : other.1 = right.1
    · exact differ (leftKey.symm.trans (same.symm.trans rightKey))
    · exact rightAbsent rightKey (same ▸ leftKey ▸ List.mem_map_of_mem leftMember)
  · rcases key_of_mem_replaced otherMember with rightKey | rightTag
    · by_cases leftKey : one.1 = left.1
      · exact differ (leftKey.symm.trans (same.symm.trans rightKey))
      · exact leftAbsent leftKey (same ▸ rightKey ▸ List.mem_map_of_mem rightMember)
    · rw [same] at rightTag
      rcases tagField?_eq_some leftTag with ⟨leftKey, leftName⟩ | ⟨leftKey, leftName⟩ <;>
        rcases tagField?_eq_some rightTag with ⟨rightKey, rightName⟩ | ⟨rightKey, rightName⟩
      · exact differ (leftKey.trans rightKey.symm)
      · exact absurd (leftName.symm.trans rightName) (by decide)
      · exact absurd (leftName.symm.trans rightName) (by decide)
      · exact differ (leftKey.trans rightKey.symm)

/-! ## Names of written fields -/

/-- The names of the fields are among the keys, in their order. -/
theorem names_sublist (registry : Registry) (signingOnly : Bool) (entries : List (String × Json)) :
    ((writtenFields registry signingOnly entries).map (·.1.name)).Sublist (entries.map (·.1)) := by
  induction entries with
  | nil =>
      exact .slnil
  | cons entry rest inductionHypothesis =>
      cases found : writtenField? registry signingOnly entry with
      | none =>
          rw [writtenFields, List.filterMap_cons_none (by rw [found]; rfl)]
          exact inductionHypothesis.cons entry.1
      | some field =>
          have alone : (field, entry.2) ∈ writtenFields registry signingOnly [entry] := by
            simp [writtenFields, found]
          have named := List.mem_singleton.mp (mem_writtenFields alone).1
          have same : field.name = entry.1 := congrArg Prod.fst named
          rw [writtenFields, List.filterMap_cons_some (by rw [found]; rfl), List.map_cons,
            List.map_cons]
          dsimp only
          rw [same]
          exact inductionHypothesis.cons_cons entry.1

theorem nodup_names {context : Context} {entries result : List (String × Json)}
    (succeeded : expand context.addresses entries = .ok result)
    (distinct : (entries.map (·.1)).Nodup) :
    ((parts context .object (.object entries)).map (·.1.name)).Nodup :=
  (names_sublist _ _ _).nodup (nodup_keys_expanded succeeded distinct)

end Object

end LedgerWire
