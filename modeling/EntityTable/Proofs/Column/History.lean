import EntityTable.Proofs.Column.Resolved
import Mathlib.Data.List.Induction

/-! # The history of plans

A caller inserts and erases plans, clears them all or resets them to the resolved plans of a schema.
Such a run of steps (`Plans.run`) is a history of moves: a plan is put in, the plan of one column or
all plans are dropped; a reset drops all plans and puts in those of the schema's stored fields, one
by one. What the plans are in the end is said on the history alone: a column has the plan that was
put in last and not dropped since (`get?_replay`), and columns stand in the order of the moves that
brought them in, where a plan that replaces another brings in no column (`columns_replay`). -/

namespace EntityTable.Column

open Entity (Schema)

/-- What happens to the plans of a table. -/
inductive Move where
  | put (plan : Plan)
  | drop (column : String)
  | dropAll

/-- What a caller does with the plans of a table. -/
inductive Step where
  | insert (plan : Plan)
  | erase (column : String)
  | clear
  /-- The plans become those that a schema resolves to; a schema that does not resolve changes
  nothing. -/
  | reset (schema : Schema)

/-! ### Steps and moves -/

namespace Plans

/-- The plans after a move. -/
def move (ps : Plans) : Move → Plans
  | .put plan => ps.insert plan
  | .drop column => ps.erase column
  | .dropAll => .empty

/-- The plans after a step. -/
def apply (ps : Plans) : Step → Plans
  | .insert plan => ps.insert plan
  | .erase column => ps.erase column
  | .clear => .empty
  | .reset schema =>
    match resolve schema with
    | .ok resolved => resolved
    | .error _ => ps

/-- The plans after steps that begin without plans. -/
def run (steps : List Step) : Plans := steps.foldl apply .empty

end Plans

/-- The moves of a step. -/
def Step.moves : Step → List Move
  | .insert plan => [.put plan]
  | .erase column => [.drop column]
  | .clear => [.dropAll]
  | .reset schema =>
    match schema.storable.mapM Plan.ofField with
    | .ok plans => .dropAll :: plans.map .put
    | .error _ => []

/-- The moves of steps, in order. -/
def history (steps : List Step) : List Move := steps.flatMap Step.moves

/-! ### What a history says -/

namespace Move

/-- The move leaves a column without a plan. -/
def Removes (column : String) : Move → Prop
  | put _ => False
  | drop c => c = column
  | dropAll => True

/-- The move changes the plan of a column. -/
def Concerns (column : String) : Move → Prop
  | put plan => plan.column = column
  | m => m.Removes column

/-- The plan was put in for the column, and nothing has concerned the column since. -/
def Latest (ms : List Move) (column : String) (plan : Plan) : Prop :=
  ∃ before after, ms = before ++ put plan :: after ∧ plan.column = column ∧
    ∀ m ∈ after, ¬ m.Concerns column

/-- The column was brought in by the move at this place: it had no plan before, and has not been
without one since. -/
def BornAt (ms : List Move) (column : String) (place : Nat) : Prop :=
  ∃ before plan after, ms = before ++ put plan :: after ∧ before.length = place ∧
    plan.column = column ∧ (∀ p, ¬ Latest before column p) ∧ ∀ m ∈ after, ¬ m.Removes column

/-- A move in a longer history is the last one, or stood in the history before. -/
theorem append_singleton_eq {ms before after : List Move} {m m' : Move} :
    ms ++ [m] = before ++ m' :: after ↔
      (before = ms ∧ m' = m ∧ after = []) ∨
      ∃ between, after = between ++ [m] ∧ ms = before ++ m' :: between := by
  constructor
  · intro hsplit
    rcases List.eq_nil_or_concat' after with rfl | ⟨between, last, rfl⟩
    · obtain ⟨rfl, hm⟩ := List.append_inj' hsplit rfl
      exact Or.inl ⟨rfl, (List.singleton_inj.mp hm).symm, rfl⟩
    · rw [← List.cons_append, ← List.append_assoc] at hsplit
      obtain ⟨rfl, hm⟩ := List.append_inj' hsplit rfl
      exact Or.inr ⟨between, by rw [hm], rfl⟩
  · rintro (⟨rfl, rfl, rfl⟩ | ⟨between, rfl, rfl⟩)
    · rfl
    · simp

variable {ms : List Move} {column : String} {plan : Plan} {place : Nat}

/-- What was put in last is still the latest unless the next move concerns the column. -/
theorem latest_append_singleton {m : Move} : Latest (ms ++ [m]) column plan ↔
    (m = put plan ∧ plan.column = column) ∨ (¬ m.Concerns column ∧ Latest ms column plan) := by
  constructor
  · rintro ⟨before, after, hsplit, hcolumn, hafter⟩
    rcases append_singleton_eq.mp hsplit with ⟨rfl, rfl, -⟩ | ⟨between, rfl, rfl⟩
    · exact Or.inl ⟨rfl, hcolumn⟩
    · exact Or.inr ⟨hafter m (by simp), before, between, rfl, hcolumn,
        fun m hm => hafter m (by simp [hm])⟩
  · rintro (⟨rfl, hcolumn⟩ | ⟨hm, before, after, rfl, hcolumn, hafter⟩)
    · exact ⟨ms, [], rfl, hcolumn, by simp⟩
    · refine ⟨before, after ++ [m], by simp, hcolumn, fun m' hm' => ?_⟩
      rcases List.mem_append.mp hm' with hm' | hm'
      · exact hafter m' hm'
      · rwa [List.mem_singleton.mp hm']

/-- A column was brought in before the last move, or by it. -/
theorem bornAt_append_singleton {m : Move} : BornAt (ms ++ [m]) column place ↔
    (place = ms.length ∧ (∃ p, m = put p ∧ p.column = column) ∧ ∀ p, ¬ Latest ms column p) ∨
    (¬ m.Removes column ∧ BornAt ms column place) := by
  constructor
  · rintro ⟨before, p, after, hsplit, hplace, hcolumn, habsent, hafter⟩
    rcases append_singleton_eq.mp hsplit with ⟨rfl, rfl, -⟩ | ⟨between, rfl, rfl⟩
    · exact Or.inl ⟨hplace.symm, ⟨p, rfl, hcolumn⟩, habsent⟩
    · exact Or.inr ⟨hafter m (by simp), before, p, between, rfl, hplace, hcolumn, habsent,
        fun m hm => hafter m (by simp [hm])⟩
  · rintro (⟨rfl, ⟨p, rfl, hcolumn⟩, habsent⟩ |
      ⟨hm, before, p, after, rfl, hplace, hcolumn, habsent, hafter⟩)
    · exact ⟨ms, p, [], rfl, rfl, hcolumn, habsent, by simp⟩
    · refine ⟨before, p, after ++ [m], by simp, hplace, hcolumn, habsent, fun m' hm' => ?_⟩
      rcases List.mem_append.mp hm' with hm' | hm'
      · exact hafter m' hm'
      · rwa [List.mem_singleton.mp hm']

theorem BornAt.lt_length (h : BornAt ms column place) : place < ms.length := by
  obtain ⟨before, p, after, rfl, rfl, -⟩ := h
  simp

end Move

/-! ### What a run leads to -/

namespace Plans

open Move

/-- The plans after moves that begin without plans. -/
def replay (ms : List Move) : Plans := ms.foldl move .empty

theorem replay_append_singleton (ms : List Move) (m : Move) :
    replay (ms ++ [m]) = (replay ms).move m := by
  simp [replay]

theorem nodup_columns_move {ps : Plans} (h : ps.columns.Nodup) : ∀ m, (ps.move m).columns.Nodup
  | .put _ => nodup_columns_insert h
  | .drop _ => nodup_columns_erase h
  | .dropAll => List.nodup_nil

theorem nodup_columns_replay (ms : List Move) : (replay ms).columns.Nodup := by
  induction ms using List.reverseRecOn with
  | nil => exact List.nodup_nil
  | append_singleton ms m ih =>
    rw [replay_append_singleton]
    exact nodup_columns_move ih m

/-- What a move does to the plan of a column. -/
theorem get?_move {ps : Plans} (h : ps.columns.Nodup) {m : Move} {column : String} {plan : Plan} :
    (ps.move m).get? column = some plan ↔
      (m = .put plan ∧ plan.column = column) ∨
      (¬ m.Concerns column ∧ ps.get? column = some plan) := by
  cases m with
  | put p =>
    rw [move, get?_insert]
    by_cases hp : p.column = column
    · rw [if_pos hp]
      constructor
      · rintro ⟨⟩
        exact Or.inl ⟨rfl, hp⟩
      · rintro (⟨h, -⟩ | ⟨hne, -⟩)
        · cases h
          rfl
        · exact absurd hp hne
    · rw [if_neg hp]
      constructor
      · exact fun hget => Or.inr ⟨hp, hget⟩
      · rintro (⟨h, hcolumn⟩ | ⟨-, hget⟩)
        · cases h
          exact absurd hcolumn hp
        · exact hget
  | drop c =>
    rw [move, get?_erase h]
    by_cases hc : c = column
    · simp [Concerns, Removes, hc]
    · simp [Concerns, Removes, hc]
  | dropAll => simp [move, get?_empty, Concerns, Removes]

/-- **A column has the plan that was put in last and not dropped since.** -/
theorem get?_replay (ms : List Move) {column : String} {plan : Plan} :
    (replay ms).get? column = some plan ↔ Latest ms column plan := by
  induction ms using List.reverseRecOn with
  | nil => simp [replay, get?_empty, Latest]
  | append_singleton ms m ih =>
    rw [replay_append_singleton, get?_move (nodup_columns_replay ms), latest_append_singleton, ih]

theorem mem_columns_replay {ms : List Move} {column : String} :
    column ∈ (replay ms).columns ↔ ∃ plan, Latest ms column plan := by
  rw [← isSome_get?, Option.isSome_iff_exists]
  simp only [get?_replay]

/-- A column that a move has brought in is still there. -/
theorem mem_columns_of_bornAt {ms : List Move} {column : String} {place : Nat}
    (h : BornAt ms column place) : column ∈ (replay ms).columns := by
  obtain ⟨before, plan, after, rfl, -, hcolumn, -, hafter⟩ := h
  induction after using List.reverseRecOn with
  | nil =>
    rw [mem_columns_replay]
    exact ⟨plan, before, [], rfl, hcolumn, by simp⟩
  | append_singleton after m ih =>
    have hkept : column ∈ (replay (before ++ .put plan :: after)).columns :=
      ih fun m' hm' => hafter m' (by simp [hm'])
    have hm : ¬ m.Removes column := hafter m (by simp)
    rw [← List.cons_append, ← List.append_assoc, replay_append_singleton]
    cases m with
    | put p =>
      by_cases hp : p.column ∈ (replay (before ++ .put plan :: after)).columns
      · rwa [move, columns_insert_of_mem hp]
      · rw [move, columns_insert_of_notMem hp]
        exact List.mem_append_left _ hkept
    | drop c => exact (mem_columns_erase (nodup_columns_replay _)).mpr ⟨hkept, hm⟩
    | dropAll => exact absurd trivial hm

/-- The columns stand in the order of the places where they were brought in. -/
def InOrderOfBirth (ms : List Move) (columns : List String) : Prop :=
  (∀ c ∈ columns, ∃ place, BornAt ms c place) ∧
  columns.Pairwise fun a b => ∀ i j, BornAt ms a i → BornAt ms b j → i < j

/-- A move that brings in no column and none of whose columns are new keeps the order of those that
are left. -/
theorem InOrderOfBirth.keep {ms : List Move} {m : Move} {columns left : List String}
    (h : InOrderOfBirth ms columns) (hleft : left.Sublist columns)
    (hborn : ∀ c ∈ left, ∀ place, BornAt (ms ++ [m]) c place ↔ BornAt ms c place) :
    InOrderOfBirth (ms ++ [m]) left := by
  refine ⟨fun c hc => ?_, ?_⟩
  · obtain ⟨place, hplace⟩ := h.1 c (hleft.subset hc)
    exact ⟨place, (hborn c hc place).mpr hplace⟩
  · refine (h.2.sublist hleft).imp_of_mem fun ha hb hlt i j hi hj => ?_
    exact hlt i j ((hborn _ ha i).mp hi) ((hborn _ hb j).mp hj)

/-- **The columns stand in the order in which they were brought in.** -/
theorem columns_replay (ms : List Move) : InOrderOfBirth ms (replay ms).columns := by
  induction ms using List.reverseRecOn with
  | nil => exact ⟨fun c hc => (nomatch hc), List.Pairwise.nil⟩
  | append_singleton ms m ih =>
    rw [replay_append_singleton]
    have hpresent {c : String} (hc : c ∈ (replay ms).columns) : ¬ ∀ p, ¬ Latest ms c p :=
      fun hnone => (mem_columns_replay.mp hc).elim hnone
    -- a column that was there before is as old as it was, unless the move removes it
    have hkept {c : String} (hc : c ∈ (replay ms).columns) (hm : ¬ m.Removes c) (place : Nat) :
        BornAt (ms ++ [m]) c place ↔ BornAt ms c place := by
      rw [bornAt_append_singleton]
      exact ⟨fun h => h.elim (fun h => absurd h.2.2 (hpresent hc)) And.right,
        fun h => Or.inr ⟨hm, h⟩⟩
    cases m with
    | put p =>
      by_cases hp : p.column ∈ (replay ms).columns
      · rw [move, columns_insert_of_mem hp]
        exact ih.keep (List.Sublist.refl _) fun c hc => hkept hc id
      · have hold := ih.keep (List.Sublist.refl _) fun c hc => hkept hc id
        have habsent : ∀ q, ¬ Latest ms p.column q := fun q hq =>
          hp (mem_columns_replay.mpr ⟨q, hq⟩)
        -- the new column is the last, and the only one that the last move brings in
        have hnew (place : Nat) : BornAt (ms ++ [.put p]) p.column place ↔ place = ms.length := by
          rw [bornAt_append_singleton]
          constructor
          · rintro (⟨rfl, -⟩ | ⟨-, hborn⟩)
            · rfl
            · exact absurd (mem_columns_of_bornAt hborn) hp
          · exact fun h => Or.inl ⟨h, ⟨p, rfl, rfl⟩, habsent⟩
        rw [move, columns_insert_of_notMem hp]
        refine ⟨fun c hc => ?_, List.pairwise_append.mpr ⟨hold.2, List.pairwise_singleton _ _, ?_⟩⟩
        · rcases List.mem_append.mp hc with hc | hc
          · exact hold.1 c hc
          · rw [List.mem_singleton.mp hc]
            exact ⟨ms.length, (hnew _).mpr rfl⟩
        · intro a ha b hb i j hi hj
          rw [List.mem_singleton.mp hb, hnew] at hj
          rw [hj]
          exact ((hkept ha id i).mp hi).lt_length
    | drop column =>
      refine ih.keep columns_erase_sublist fun c hc => ?_
      obtain ⟨hmem, hne⟩ := (mem_columns_erase (nodup_columns_replay ms)).mp hc
      exact hkept hmem hne
    | dropAll => exact ⟨fun c hc => (nomatch hc), List.Pairwise.nil⟩

/-! ### Steps -/

/-- **A step does what its moves do.** -/
theorem foldl_moves (step : Step) (ps : Plans) : step.moves.foldl move ps = ps.apply step := by
  cases step with
  | insert plan => rfl
  | erase column => rfl
  | clear => rfl
  | reset schema =>
    cases hplans : schema.storable.mapM Plan.ofField with
    | error e => simp [Step.moves, apply, resolve_eq, hplans, Except.map]
    | ok plans =>
      have hput : (plans.map Move.put).foldl move .empty = plans.foldl insert .empty := by
        rw [List.foldl_map]
        rfl
      simp only [Step.moves, apply, resolve_eq, hplans, List.foldl_cons]
      exact hput

theorem run_eq_replay (steps : List Step) : run steps = replay (history steps) := by
  rw [run, replay, history, List.foldl_flatMap]
  simp only [foldl_moves]

end Plans

end EntityTable.Column
