import LedgerWire.Proofs.Consumption
import Mathlib.Logic.Function.Iterate

/-!
# Loops in rounds

A reader that loops is a round that is taken again and again: it reads, and it says
where the loop stands then or what came of it. Such a loop ends within as many
rounds as its place weighs, if every round makes it lighter. The loop over the
octets of a set of paths takes an octet in each round, and what comes of it is what
the reader of the set gives.
-/

namespace LedgerWire

theorem Took.remaining_eq {before after : Cursor} {bytes : Bytes} (took : Took before bytes after) :
    before.remaining = bytes.length + after.remaining := by
  rw [Cursor.remaining, took.rest, List.length_append, Cursor.remaining]

/-! ## Rounds -/

/-- Where a loop stands, or what came of it. -/
inductive Stage (σ ρ : Type)
  | running (state : σ)
  | finished (result : ρ)

/-- The stage of a loop that reads. -/
abbrev Loop (σ ρ : Type) := Stage (σ × Cursor) (EStateM.Result Error Cursor ρ)

namespace Loop

variable {σ ρ α β : Type}

/-- Goes on behind a reader. A failure ends the loop. -/
def onto (next : α → Cursor → Loop σ ρ) : EStateM.Result Error Cursor α → Loop σ ρ
  | .ok value cursor => next value cursor
  | .error fault cursor => .finished (.error fault cursor)

def settle : Stage σ ρ → Cursor → Loop σ ρ
  | .running state, cursor => .running (state, cursor)
  | .finished value, cursor => .finished (.ok value cursor)

/-- Takes one round, unless the loop has ended. -/
def advance (round : σ → Read (Stage σ ρ)) : Loop σ ρ → Loop σ ρ
  | .running (state, cursor) => onto settle (round state cursor)
  | .finished result => .finished result

private theorem onto_bind_pure (next : β → Cursor → Loop σ ρ) (reader : Read α) (function : α → β)
    (cursor : Cursor) :
    onto next ((reader >>= fun value => pure (function value)) cursor) =
      onto (fun value => next (function value)) (reader cursor) := by
  cases reached : reader cursor with
  | ok value after =>
      rw [Read.bind_of_ok reached]
      rfl
  | error fault after =>
      rw [Read.bind_of_error reached]
      rfl

theorem onto_finished (result : EStateM.Result Error Cursor ρ) :
    onto (fun value cursor => (.finished (.ok value cursor) : Loop σ ρ)) result =
      .finished result := by
  cases result <;> rfl

variable (round : σ → Read (Stage σ ρ))

/-- Some number of rounds leads from one stage to another. -/
def Reaches (start target : Loop σ ρ) : Prop :=
  ∃ rounds, (advance round)^[rounds] start = target

/-- Places that the loop comes by. -/
abbrev Visits (start place : σ × Cursor) : Prop :=
  Reaches round (.running start) (.running place)

variable {round}

private theorem advance_iterate_finished (result : EStateM.Result Error Cursor ρ) (rounds : Nat) :
    (advance round)^[rounds] (.finished result) = .finished result :=
  Function.iterate_fixed rfl rounds

namespace Reaches

variable {start middle target : Loop σ ρ}

theorem refl (stage : Loop σ ρ) : Reaches round stage stage := ⟨0, rfl⟩

theorem trans (first : Reaches round start middle) (second : Reaches round middle target) :
    Reaches round start target := by
  obtain ⟨before, rfl⟩ := first
  obtain ⟨behind, rfl⟩ := second
  exact ⟨behind + before, Function.iterate_add_apply _ _ _ _⟩

/-- A round and what it leads to. -/
theorem step {state : σ} {cursor : Cursor}
    (behind : Reaches round (onto settle (round state cursor)) target) :
    Reaches round (.running (state, cursor)) target := by
  obtain ⟨rounds, reached⟩ := behind
  exact ⟨rounds + 1, reached⟩

/-- However it is run, the loop ends in one way. -/
theorem unique {first second : EStateM.Result Error Cursor ρ}
    (one : Reaches round start (.finished first)) (other : Reaches round start (.finished second)) :
    first = second := by
  obtain ⟨before, reached⟩ := one
  obtain ⟨behind, ended⟩ := other
  have fromFirst := Function.iterate_add_apply (advance round) behind before start
  have fromSecond := Function.iterate_add_apply (advance round) before behind start
  rw [reached, advance_iterate_finished] at fromFirst
  rw [ended, advance_iterate_finished, Nat.add_comm, fromFirst] at fromSecond
  exact Stage.finished.inj fromSecond

end Reaches

/-! ### How long a loop runs -/

/-- Every round that does not end the loop makes it lighter. -/
def Lightens (round : σ → Read (Stage σ ρ)) (weight : σ × Cursor → Nat) : Prop :=
  ∀ before after, advance round (.running before) = .running after → weight after < weight before

variable {weight : σ × Cursor → Nat}

private theorem finishes (lightens : Lightens round weight) {place : σ × Cursor} {rounds : Nat}
    (enough : weight place < rounds) :
    ∃ result, (advance round)^[rounds] (.running place) = .finished result := by
  induction rounds generalizing place with
  | zero =>
      exact absurd enough (Nat.not_lt_zero _)
  | succ rounds inductionHypothesis =>
      rw [Function.iterate_succ_apply]
      cases taken : advance round (.running place) with
      | running next =>
          have lighter := lightens place next taken
          exact inductionHypothesis (by omega)
      | finished result =>
          exact ⟨result, advance_iterate_finished result rounds⟩

/-- What the loop ends with at all it ends with in so many rounds. -/
theorem finished_of_reaches (lightens : Lightens round weight) {place : σ × Cursor}
    {result : EStateM.Result Error Cursor ρ}
    (reaches : Reaches round (.running place) (.finished result)) :
    (advance round)^[weight place + 1] (.running place) = .finished result := by
  obtain ⟨other, ended⟩ := finishes lightens (Nat.lt_succ_self (weight place))
  rw [Reaches.unique reaches ⟨_, ended⟩]
  exact ended

/-- What a round preserves holds wherever the loop comes by. -/
theorem holds_of_visits {invariant : σ × Cursor → Prop}
    (preserved : ∀ before after, invariant before →
      advance round (.running before) = .running after → invariant after)
    {start place : σ × Cursor} (initially : invariant start) (visits : Visits round start place) :
    invariant place := by
  obtain ⟨rounds, reached⟩ := visits
  induction rounds generalizing start with
  | zero =>
      cases reached
      exact initially
  | succ rounds inductionHypothesis =>
      rw [Function.iterate_succ_apply] at reached
      cases taken : advance round (.running start) with
      | running next =>
          rw [taken] at reached
          exact inductionHypothesis (preserved start next initially taken) reached
      | finished result =>
          rw [taken, advance_iterate_finished] at reached
          cases reached

theorem advance_eq_running {before after : σ × Cursor}
    (taken : advance round (.running before) = .running after) :
    round before.1 before.2 = .ok (.running after.1) after.2 := by
  obtain ⟨state, cursor⟩ := before
  rw [advance] at taken
  cases reached : round state cursor with
  | ok stage middle =>
      rw [reached] at taken
      cases stage with
      | running next =>
          cases taken
          rfl
      | finished value =>
          cases taken
  | error fault middle =>
      rw [reached] at taken
      cases taken

end Loop

/-! ## Sets of paths -/

namespace PathSet

open Loop

/-- The paths that have ended, and the hops of the one that is read. -/
structure Walk where
  ended : List Path
  hops : Path

/-- One round of the loop over the octets of a set. -/
def round (walk : Walk) : Read (Stage Walk PathSet) := do
  let next ← Read.peek
  if next = terminator then
    let _ ← Read.byte
    return .finished ⟨if walk.hops = [] ∧ walk.ended = [] then [] else walk.ended ++ [walk.hops]⟩
  else if next = separator then
    let _ ← Read.byte
    return .running ⟨walk.ended ++ [walk.hops], []⟩
  else
    let hop ← Hop.read
    return .running ⟨walk.ended, walk.hops ++ [hop]⟩

/-- A round that does not end the loop takes an octet at least. -/
theorem round_takes {walk next : Walk} {before after : Cursor}
    (taken : round walk before = .ok (.running next) after) :
    after.remaining < before.remaining := by
  obtain ⟨first, middle, seen, others⟩ := Read.bind_eq_ok.mp taken
  obtain ⟨tail, inFront, rfl⟩ := Read.peek_eq_ok seen
  split at others
  · obtain ⟨_, _, _, last⟩ := Read.bind_eq_ok.mp others
    cases last
  · split at others
    · obtain ⟨mark, second, marked, last⟩ := Read.bind_eq_ok.mp others
      obtain ⟨_, rfl⟩ := Read.pure_eq_ok.mp last
      have took := (Read.byte_eq_ok marked).1.remaining_eq
      rw [List.length_singleton] at took
      omega
    · obtain ⟨hop, second, hopRead, last⟩ := Read.bind_eq_ok.mp others
      obtain ⟨_, rfl⟩ := Read.pure_eq_ok.mp last
      have took := (Hop.read_eq_ok hopRead).remaining_eq
      rw [Hop.bytes, List.length_cons] at took
      omega

theorem lightens_round : Lightens round fun place => place.2.remaining :=
  fun _ _ taken => round_takes (advance_eq_running taken)

variable {cursor : Cursor}

private theorem round_of_peek_error {walk : Walk} {fault : Error} {after : Cursor}
    (failed : Read.peek cursor = .error fault after) :
    round walk cursor = .error fault after := Read.bind_of_error failed

private theorem round_of_hop {walk : Walk} {next : UInt8}
    (seen : Read.peek cursor = .ok next cursor) (unmarked : ¬ IsMark next) :
    round walk cursor =
      (Hop.read >>= fun hop => pure (.running ⟨walk.ended, walk.hops ++ [hop]⟩)) cursor := by
  rw [not_or] at unmarked
  rw [round, Read.bind_of_ok seen, if_neg unmarked.2, if_neg unmarked.1]

private theorem round_of_separator (walk : Walk) (position : Nat) (rest : Bytes) (levels : Nat) :
    round walk ⟨position, separator :: rest, levels⟩ =
      .ok (.running ⟨walk.ended ++ [walk.hops], []⟩) ⟨position + 1, rest, levels⟩ := rfl

private theorem round_of_terminator (walk : Walk) (position : Nat) (rest : Bytes) (levels : Nat) :
    round walk ⟨position, terminator :: rest, levels⟩ =
      .ok (.finished
        ⟨if walk.hops = [] ∧ walk.ended = [] then [] else walk.ended ++ [walk.hops]⟩)
        ⟨position + 1, rest, levels⟩ := rfl

/-- The loop comes by the end of the hops that are read in a row. -/
theorem reaches_readHops (ended : List Path) (hops : Path) {fuel : Nat}
    (enough : cursor.remaining < fuel) :
    Reaches round (.running (⟨ended, hops⟩, cursor))
      (onto (fun path after => .running (⟨ended, hops ++ path⟩, after))
        (readHops fuel cursor)) := by
  induction fuel generalizing hops cursor with
  | zero =>
      exact absurd enough (Nat.not_lt_zero _)
  | succ fuel inductionHypothesis =>
      rw [readHops]
      cases peeked : Read.peek cursor with
      | error fault after =>
          rw [Read.bind_of_error peeked]
          apply Reaches.step
          rw [round_of_peek_error peeked]
          exact Reaches.refl _
      | ok next after =>
          obtain ⟨tail, inFront, rfl⟩ := Read.peek_eq_ok peeked
          rw [Read.bind_of_ok peeked]
          by_cases isMark : IsMark next
          · rw [if_pos isMark, Read.pure_apply, onto, List.append_nil]
            exact Reaches.refl _
          · rw [if_neg isMark]
            apply Reaches.step
            rw [round_of_hop peeked isMark]
            cases hopRead : Hop.read after with
            | error fault last =>
                rw [Read.bind_of_error hopRead, Read.bind_of_error hopRead]
                exact Reaches.refl _
            | ok hop last =>
                have fewer : last.remaining < fuel := by
                  have took := (Hop.read_eq_ok hopRead).remaining_eq
                  rw [Hop.bytes, List.length_cons] at took
                  omega
                have behind := inductionHypothesis (hops ++ [hop]) fewer
                simp only [List.append_assoc, List.singleton_append] at behind
                rw [Read.bind_of_ok hopRead, Read.bind_of_ok hopRead, onto_bind_pure]
                exact behind

/-- What the loop ends with is what comes of the paths that are read in a row. -/
theorem reaches_readPaths (ended : List Path) {fuel : Nat} (enough : cursor.remaining < fuel) :
    Reaches round (.running (⟨ended, []⟩, cursor))
      (onto (fun paths after =>
          .finished (.ok ⟨if ended ++ paths = [[]] then [] else ended ++ paths⟩ after))
        (readPaths fuel cursor)) := by
  induction fuel generalizing ended cursor with
  | zero =>
      exact absurd enough (Nat.not_lt_zero _)
  | succ fuel inductionHypothesis =>
      have hops := reaches_readHops ended [] (Nat.lt_succ_self cursor.remaining)
      rw [readPaths, Read.bind_of_ok (Read.get_apply _)]
      refine hops.trans ?_
      cases pathRead : readHops (cursor.remaining + 1) cursor with
      | error fault after =>
          rw [Read.bind_of_error pathRead]
          exact Reaches.refl _
      | ok path after =>
          obtain ⟨tookPath, _, mark, rest, inFront, isMark⟩ := readHops_eq_ok pathRead
          obtain ⟨position, _, levels⟩ := after
          cases inFront
          have seen : Read.peek ⟨position, mark :: rest, levels⟩ =
              .ok mark ⟨position, mark :: rest, levels⟩ := rfl
          have marked := Takes.byte mark position rest levels
          rw [List.singleton_append] at marked
          rw [Read.bind_of_ok pathRead, Read.bind_of_ok marked]
          apply Reaches.step
          rcases isMark with rfl | rfl
          · have fewer : Cursor.remaining ⟨position + 1, rest, levels⟩ < fuel := by
              have took := tookPath.remaining_eq
              simp only [Cursor.remaining, List.length_cons] at enough took ⊢
              omega
            have behind := inductionHypothesis (ended ++ [path]) fewer
            simp only [List.append_assoc, List.singleton_append] at behind
            rw [if_pos rfl, onto_bind_pure, round_of_separator]
            exact behind
          · rw [if_neg (by decide), round_of_terminator]
            have lone : (path = [] ∧ ended = []) ↔ ended ++ [path] = [[]] := by
              cases ended <;> simp
            simp only [List.nil_append, lone]
            exact Reaches.refl _

/-- The loop over the octets of a set ends, and what it ends with is what the reader of
the set gives. -/
theorem reaches_read (cursor : Cursor) :
    Reaches round (.running (⟨[], []⟩, cursor)) (.finished (read cursor)) := by
  have paths := reaches_readPaths [] (Nat.lt_succ_self cursor.remaining)
  simp only [List.nil_append] at paths
  rw [← onto_finished (read cursor), read, Read.bind_of_ok (Read.get_apply _), onto_bind_pure]
  exact paths

theorem finishes_read (cursor : Cursor) :
    (advance round)^[cursor.remaining + 1] (.running (⟨[], []⟩, cursor)) =
      .finished (read cursor) :=
  finished_of_reaches lightens_round (reaches_read cursor)

end PathSet

end LedgerWire
