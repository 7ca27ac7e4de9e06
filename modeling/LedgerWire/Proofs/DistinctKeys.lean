import LedgerWire.Json.Reader
import LedgerWire.Proofs.Entries

/-!
# Documents that are read from texts

Whatever a text repeats, no object of the document that is read from it has two
entries with one key. A step of the reader keeps this of all that is open and of
the value in front of it.
-/

namespace LedgerWire.Json

/-! ## Objects from entries -/

abbrev Ascending (entries : List (String × Json)) : Prop :=
  (entries.map (·.1)).Pairwise (· < ·)

theorem nodup_of_ascending {entries : List (String × Json)} (ascending : Ascending entries) :
    (entries.map (·.1)).Nodup := by
  apply ascending.imp
  rintro left right smaller rfl
  exact String.lt_irrefl _ smaller

theorem key_of_mem_addEntry {key : String} {value : Json} {entries : List (String × Json)}
    {entry : String × Json} (member : entry ∈ addEntry key value entries) :
    entry = (key, value) ∨ entry ∈ entries := by
  induction entries with
  | nil =>
      exact .inl (List.mem_singleton.mp member)
  | cons first rest inductionHypothesis =>
      obtain ⟨other, held⟩ := first
      rw [addEntry] at member
      split at member
      · exact List.mem_cons.mp member
      · split at member
        · exact .inr member
        · rcases List.mem_cons.mp member with same | later
          · exact .inr (List.mem_cons.mpr (.inl same))
          · exact (inductionHypothesis later).imp_right (List.mem_cons_of_mem _)

theorem ascending_addEntry {entries : List (String × Json)} (ascending : Ascending entries)
    (key : String) (value : Json) : Ascending (addEntry key value entries) := by
  induction entries with
  | nil =>
      exact List.pairwise_singleton _ _
  | cons first rest inductionHypothesis =>
      obtain ⟨other, held⟩ := first
      have whole := ascending
      rw [Ascending, List.map_cons, List.pairwise_cons] at ascending
      obtain ⟨below, others⟩ := ascending
      rw [addEntry]
      split
      · rename_i smaller
        refine List.pairwise_cons.mpr ⟨fun name member => ?_, whole⟩
        rcases List.mem_cons.mp member with rfl | later
        · exact smaller
        · exact String.lt_trans smaller (below name later)
      · split
        · exact whole
        · rename_i notSmaller different
          refine List.pairwise_cons.mpr ⟨fun name member => ?_, inductionHypothesis others⟩
          obtain ⟨entry, present, rfl⟩ := List.mem_map.mp member
          rcases key_of_mem_addEntry present with rfl | later
          · have notAbove : other ≤ key := String.not_lt.mp notSmaller
            exact String.not_le.mp fun above => different (String.le_antisymm above notAbove)
          · exact below entry.1 (List.mem_map_of_mem later)

/-- An object has distinct keys whatever entries it is made from. -/
theorem distinctKeys_ofEntries {entries : List (String × Json)}
    (values : ∀ entry ∈ entries, entry.2.distinctKeys = true) :
    (ofEntries entries).distinctKeys = true := by
  have held : Ascending (entries.foldr (fun entry done => addEntry entry.1 entry.2 done) []) ∧
      ∀ entry ∈ entries.foldr (fun entry done => addEntry entry.1 entry.2 done) [],
        entry.2.distinctKeys = true := by
    induction entries with
    | nil =>
        exact ⟨.nil, fun entry member => absurd member List.not_mem_nil⟩
    | cons first rest inductionHypothesis =>
        obtain ⟨ascending, others⟩ := inductionHypothesis fun entry member =>
          values entry (List.mem_cons_of_mem first member)
        refine ⟨ascending_addEntry ascending _ _, fun entry member => ?_⟩
        rcases key_of_mem_addEntry member with rfl | later
        · exact values first List.mem_cons_self
        · exact others entry later
  refine distinctKeys_object.mpr ⟨held.1.imp fun smaller same => ?_, held.2⟩
  rw [same] at smaller
  exact String.lt_irrefl _ smaller

/-! ## Steps of the reader -/

/-- All that an open array or object holds has distinct keys. -/
def Frame.Distinct : Frame → Prop
  | .array done => ∀ item ∈ done, item.distinctKeys = true
  | .object done _ => ∀ entry ∈ done, entry.2.distinctKeys = true

/-- What is open and the value in front of the place have distinct keys. -/
structure Place.Distinct (place : Place) : Prop where
  opened : ∀ frame ∈ place.opened, frame.Distinct
  value : ∀ value ∈ place.value, value.distinctKeys = true

/-- The reader makes objects with distinct keys and has no stand-in for a value. -/
structure Reading.Distinct (reading : Reading) : Prop where
  object : ∀ entries, (∀ entry ∈ entries, entry.2.distinctKeys = true) →
    (reading.object entries).distinctKeys = true
  meaningless : reading.meaningless = none

namespace Reading.Distinct

variable {reading : Reading} (distinct : reading.Distinct)

include distinct

theorem stringOf? {text : Option String} {value : Json}
    (found : reading.stringOf? text = some value) : value.distinctKeys = true := by
  rw [Reading.stringOf?, distinct.meaningless, Option.or_none] at found
  obtain ⟨spelled, _, rfl⟩ := Option.map_eq_some_iff.mp found
  rfl

theorem numberOf? {number : Option Number} {value : Json}
    (found : reading.numberOf? number = some value) : value.distinctKeys = true := by
  rw [Reading.numberOf?, distinct.meaningless, Option.or_none] at found
  obtain ⟨spelled, _, rfl⟩ := Option.map_eq_some_iff.mp found
  rfl

theorem objectOf? {entries : List (Option String × Json)} {value : Json}
    (values : ∀ entry ∈ entries, entry.2.distinctKeys = true)
    (found : reading.objectOf? entries = some value) : value.distinctKeys = true := by
  rw [Reading.objectOf?, distinct.meaningless, Option.or_none] at found
  obtain ⟨named, mapped, rfl⟩ := Option.map_eq_some_iff.mp found
  refine distinct.object named fun entry member => ?_
  obtain ⟨origin, present, same⟩ :=
    Outcome.exists_of_mem_right (Outcome.mapM_eq_some.mp mapped) member
  obtain ⟨key, _, rfl⟩ := Option.map_eq_some_iff.mp same
  exact values origin present

end Reading.Distinct

namespace Place

namespace Distinct

variable {place : Place} (held : place.Distinct)

include held

theorem found {value : Json} (valueHeld : value.distinctKeys = true) (rest : List Char) :
    Distinct { place with value := some value, rest } where
  opened := held.opened
  value other same := by
    cases same
    exact valueHeld

theorem enter {frame : Frame} (frameHeld : frame.Distinct) (levels : Nat) (rest : List Char) :
    Distinct { place with levels, opened := frame :: place.opened, rest } where
  opened other member := by
    rcases List.mem_cons.mp member with rfl | outer
    · exact frameHeld
    · exact held.opened other outer
  value := held.value

end Distinct

variable {reading : Reading} {fuel : Nat}

/-- A literal, a string and a number are values at once, and an array or object that is
not empty is opened with nothing in it. -/
theorem begin_distinct (distinct : reading.Distinct) {place next : Place}
    (given : place.begin reading fuel = some next) (held : place.Distinct) : next.Distinct := by
  unfold begin at given
  dsimp only at given
  split at given
  · cases given
    exact held.found rfl _
  · cases given
    exact held.found rfl _
  · cases given
    exact held.found rfl _
  · obtain ⟨⟨text, rest⟩, _, taken⟩ := Option.bind_eq_some_iff.mp given
    obtain ⟨value, spelled, same⟩ := Option.bind_eq_some_iff.mp taken
    cases same
    exact held.found (distinct.stringOf? spelled) rest
  · split at given
    · cases given
    · cases given
      exact held.found rfl _
    · cases given
      have empty : Frame.Distinct (.array []) := fun item => nofun
      exact held.enter empty _ _
  · split at given
    · cases given
    · cases given
      exact held.found (distinct.object [] fun entry => nofun) _
    · obtain ⟨⟨key, rest⟩, _, same⟩ := Option.bind_eq_some_iff.mp given
      cases same
      have empty : Frame.Distinct (.object [] key) := fun entry => nofun
      exact held.enter empty _ rest
  · obtain ⟨⟨number, rest⟩, _, taken⟩ := Option.bind_eq_some_iff.mp given
    obtain ⟨value, spelled, same⟩ := Option.bind_eq_some_iff.mp taken
    cases same
    exact held.found (distinct.numberOf? spelled) rest
  · obtain ⟨⟨number, rest⟩, _, taken⟩ := Option.bind_eq_some_iff.mp given
    obtain ⟨value, spelled, same⟩ := Option.bind_eq_some_iff.mp taken
    cases same
    exact held.found (distinct.numberOf? spelled) rest

/-- A value joins those of the innermost frame, which goes on or is closed. -/
theorem proceed_distinct (distinct : reading.Distinct) {place next : Place} {value : Json}
    (given : place.proceed reading fuel value = some next) (held : place.Distinct)
    (valueHeld : value.distinctKeys = true) : next.Distinct := by
  have frames := held.opened
  unfold proceed at given
  split at given
  · rename_i done outer rest opened _
    rw [opened, List.forall_mem_cons] at frames
    obtain ⟨items, others⟩ := frames
    cases given
    exact ⟨List.forall_mem_cons.mpr ⟨List.forall_mem_cons.mpr ⟨valueHeld, items⟩, others⟩,
      fun other => nofun⟩
  · rename_i done outer rest opened _
    rw [opened, List.forall_mem_cons] at frames
    obtain ⟨items, others⟩ := frames
    cases given
    refine ⟨others, fun other same => ?_⟩
    cases same
    have all : ∀ item ∈ value :: done, item.distinctKeys = true :=
      List.forall_mem_cons.mpr ⟨valueHeld, items⟩
    exact distinctKeys_array.mpr fun item member => all item (List.mem_reverse.mp member)
  · rename_i done key outer rest opened _
    rw [opened, List.forall_mem_cons] at frames
    obtain ⟨entries, others⟩ := frames
    obtain ⟨⟨next, rest⟩, _, same⟩ := Option.bind_eq_some_iff.mp given
    cases same
    exact ⟨List.forall_mem_cons.mpr ⟨List.forall_mem_cons.mpr ⟨valueHeld, entries⟩, others⟩,
      fun other => nofun⟩
  · rename_i done key outer rest opened _
    rw [opened, List.forall_mem_cons] at frames
    obtain ⟨entries, others⟩ := frames
    obtain ⟨object, made, same⟩ := Option.bind_eq_some_iff.mp given
    cases same
    refine ⟨others, fun other same => ?_⟩
    cases same
    have all : ∀ entry ∈ (key, value) :: done, entry.2.distinctKeys = true :=
      List.forall_mem_cons.mpr ⟨valueHeld, entries⟩
    exact distinct.objectOf? (fun entry member => all entry (List.mem_reverse.mp member)) made
  · cases given

private theorem run_distinct (distinct : reading.Distinct) {place : Place} {value : Json}
    {rest : List Char} (given : run reading fuel place = some (value, rest))
    (held : place.Distinct) : value.distinctKeys = true := by
  induction fuel generalizing place with
  | zero =>
      cases given
  | succ fuel inductionHypothesis =>
      rw [run] at given
      split at given
      · rename_i found
        cases given
        exact held.value _ found
      · rename_i found _
        split at given
        · rename_i proceeded
          exact inductionHypothesis given
            (proceed_distinct distinct proceeded held (held.value _ found))
        · cases given
      · split at given
        · rename_i begun
          exact inductionHypothesis given (begin_distinct distinct begun held)
        · cases given

end Place

/-- No object of a document that is read from a text has two entries with one key. -/
theorem distinctKeys_of_parse? {text : String} {document : Json}
    (read : parse? text = some document) : document.distinctKeys = true := by
  obtain ⟨⟨value, rest⟩, given, shown⟩ := Option.bind_eq_some_iff.mp read
  have distinct : Reading.Distinct ⟨maxLevels, ofEntries, none⟩ :=
    ⟨fun _ => distinctKeys_ofEntries, rfl⟩
  have held := Place.run_distinct distinct given ⟨fun frame => nofun, fun value => nofun⟩
  dsimp only at shown
  split at shown
  · cases shown
    exact held
  · cases shown

end LedgerWire.Json
