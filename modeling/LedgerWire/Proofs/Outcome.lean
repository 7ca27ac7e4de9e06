import Mathlib.Data.List.Forall2

/-!
# Successful computations

A chain of computations that may fail succeeds when each link does, and a list
is worked off when each of its items is.
-/

namespace LedgerWire.Outcome

variable {α β : Type} {ε : Type}

@[simp]
theorem ok_bind (value : α) (next : α → Except ε β) :
    (Except.ok value >>= next) = next value := rfl

@[simp]
theorem error_bind (fault : ε) (next : α → Except ε β) :
    (Except.error fault >>= next) = .error fault := rfl

@[simp]
theorem pure_eq_ok (value : α) : (pure value : Except ε α) = .ok value := rfl

@[simp]
theorem throw_eq_error (fault : ε) : (throw fault : Except ε α) = .error fault := rfl

theorem bind_eq_ok {first : Except ε α} {next : α → Except ε β} {result : β} :
    (first >>= next) = .ok result ↔
      ∃ value, first = .ok value ∧ next value = .ok result := by
  cases first with
  | error fault =>
      simp
  | ok value =>
      simp

theorem bind_pure_eq_ok {first : Except ε α} {last : α → β} {result : β} :
    (first >>= fun value => pure (last value)) = .ok result ↔
      ∃ value, first = .ok value ∧ last value = result := by
  simp [bind_eq_ok]

theorem mapError_eq_ok {ε' : Type} {first : Except ε α} {change : ε → ε'} {result : α} :
    first.mapError change = .ok result ↔ first = .ok result := by
  cases first <;> simp [Except.mapError]

theorem eq_ok_of_toOption {first : Except ε α} {result : α}
    (found : first.toOption = some result) : first = .ok result := by
  cases first with
  | error fault =>
      cases found
  | ok value =>
      cases found
      rfl

theorem mapM_eq_ok {step : α → Except ε β} {items : List α} {results : List β} :
    items.mapM step = .ok results ↔
      List.Forall₂ (fun item result => step item = .ok result) items results := by
  induction items generalizing results with
  | nil =>
      simp only [List.mapM_nil, pure_eq_ok, Except.ok.injEq, List.forall₂_nil_left_iff]
      exact eq_comm
  | cons item rest inductionHypothesis =>
      simp only [List.mapM_cons, bind_eq_ok, pure_eq_ok, Except.ok.injEq,
        List.forall₂_cons_left_iff, inductionHypothesis]
      grind

theorem mapM_eq_some {step : α → Option β} {items : List α} {results : List β} :
    items.mapM step = some results ↔
      List.Forall₂ (fun item result => step item = some result) items results := by
  induction items generalizing results with
  | nil =>
      simp only [List.mapM_nil, pure, Option.some.injEq, List.forall₂_nil_left_iff]
      exact eq_comm
  | cons item rest inductionHypothesis =>
      simp only [List.mapM_cons, bind, Option.bind_eq_some_iff, pure, Option.some.injEq,
        List.forall₂_cons_left_iff, inductionHypothesis]
      grind

/-- A list is not worked off if one of its items is not. -/
theorem exists_of_mapM_eq_error {step : α → Except ε β} {items : List α} {fault : ε}
    (failed : items.mapM step = .error fault) : ∃ item ∈ items, step item = .error fault := by
  induction items with
  | nil =>
      cases failed
  | cons item rest inductionHypothesis =>
      rw [List.mapM_cons] at failed
      cases given : step item with
      | error other =>
          rw [given] at failed
          cases failed
          exact ⟨item, List.mem_cons_self, given⟩
      | ok result =>
          cases others : rest.mapM step with
          | error other =>
              rw [given, others] at failed
              cases failed
              obtain ⟨other, member, refused⟩ := inductionHypothesis others
              exact ⟨other, List.mem_cons_of_mem item member, refused⟩
          | ok results =>
              rw [given, others] at failed
              cases failed

theorem mapM_congr {left right : α → Except ε β} {items : List α}
    (same : ∀ item ∈ items, left item = right item) : items.mapM left = items.mapM right := by
  induction items with
  | nil =>
      rfl
  | cons item rest inductionHypothesis =>
      rw [List.mapM_cons, List.mapM_cons, same item List.mem_cons_self,
        inductionHypothesis fun other member => same other (List.mem_cons_of_mem item member)]

theorem mapM_map {γ : Type} {change : γ → α} {step : α → Except ε β} (items : List γ) :
    (items.map change).mapM step = items.mapM fun item => step (change item) := by
  induction items with
  | nil =>
      rfl
  | cons item rest inductionHypothesis =>
      rw [List.map_cons, List.mapM_cons, List.mapM_cons, inductionHypothesis]

theorem exists_of_mem_left {relation : α → β → Prop} {items : List α} {results : List β}
    (related : List.Forall₂ relation items results) {item : α} (member : item ∈ items) :
    ∃ result ∈ results, relation item result := by
  induction related with
  | nil =>
      simp at member
  | cons head _ inductionHypothesis =>
      rcases List.mem_cons.mp member with rfl | later
      · exact ⟨_, List.mem_cons_self, head⟩
      · obtain ⟨result, present, holds⟩ := inductionHypothesis later
        exact ⟨result, List.mem_cons_of_mem _ present, holds⟩

theorem exists_of_mem_right {relation : α → β → Prop} {items : List α} {results : List β}
    (related : List.Forall₂ relation items results) {result : β} (member : result ∈ results) :
    ∃ item ∈ items, relation item result :=
  exists_of_mem_left related.flip member

theorem exists_forall₂ {relation : α → β → Prop} {items : List α}
    (each : ∀ item ∈ items, ∃ result, relation item result) :
    ∃ results, List.Forall₂ relation items results := by
  induction items with
  | nil =>
      exact ⟨[], .nil⟩
  | cons item rest inductionHypothesis =>
      obtain ⟨result, head⟩ := each item List.mem_cons_self
      obtain ⟨results, related⟩ := inductionHypothesis fun other member =>
        each other (List.mem_cons_of_mem item member)
      exact ⟨result :: results, .cons head related⟩

/-- Of related lists one may follow the members of the first. -/
theorem imp_of_mem_left {relation implied : α → β → Prop} {items : List α} {results : List β}
    (related : List.Forall₂ relation items results)
    (step : ∀ item ∈ items, ∀ result, relation item result → implied item result) :
    List.Forall₂ implied items results :=
  ((List.forall₂_and_left _ _).mpr ⟨step, related⟩).imp fun _ result both => both.1 result both.2

/-- Where each step makes something known of its result, so does the list. -/
theorem map_eq_map_of_mapM {γ : Type} {step : α → Except ε β} {before : α → γ} {after : β → γ}
    {items : List α} {results : List β} (worked : items.mapM step = .ok results)
    (same : ∀ item result, step item = .ok result → before item = after result) :
    items.map before = results.map after := by
  have related := mapM_eq_ok.mp worked
  clear worked
  induction related with
  | nil =>
      rfl
  | cons head _ inductionHypothesis =>
      rw [List.map_cons, List.map_cons, same _ _ head, inductionHypothesis]

theorem mapM_map_eq_ok {step : α → Except ε β} {shown : β → α} {results : List β}
    (back : ∀ result ∈ results, step (shown result) = .ok result) :
    (results.map shown).mapM step = .ok results := by
  rw [mapM_eq_ok, List.forall₂_map_left_iff, List.forall₂_same]
  exact back

/-- What holds at the start and is kept by each step holds at the end. -/
theorem foldlM_induction {motive : β → Prop} {step : β → α → Except ε β} {items : List α}
    {start result : β} (first : motive start)
    (kept : ∀ before item after, motive before → step before item = .ok after → motive after)
    (worked : items.foldlM step start = .ok result) : motive result := by
  induction items generalizing start with
  | nil =>
      rw [List.foldlM_nil, pure_eq_ok, Except.ok.injEq] at worked
      exact worked ▸ first
  | cons item rest inductionHypothesis =>
      rw [List.foldlM_cons] at worked
      obtain ⟨middle, stepped, others⟩ := bind_eq_ok.mp worked
      exact inductionHypothesis (kept start item middle first stepped) others

end LedgerWire.Outcome
