import SelectRouting.Analysis.State

/-!
# What a step answers

A step that does not fail answers a value and leaves a state. A composed step answers when its parts
do, one after the other, so a run that succeeds is taken apart along the text of the step
(`Step.yields_bind`), and a repetition into its rounds (`Step.yields_rounding`).
-/

namespace SelectRouting.Step

variable {σ α β γ : Type}

/-- The step answers `answer` from the state `before` and leaves the state `after`. -/
def Yields (step : Step σ α) (before : σ) (answer : α) (after : σ) : Prop :=
  step before = (Except.ok answer, after)

/-- A composed step runs its second part on what the first part leaves, unless that fails. -/
theorem bind_run (first : Step σ α) (next : α → Step σ β) (before : σ) :
    (first >>= next) before =
      match first before with
      | (.ok answer, between) => next answer between
      | (.error error, after) => (.error error, after) := by
  change (StateT.bind first (ExceptT.bindCont next)) before = _
  unfold StateT.bind
  change (match first before with | (answer, between) => ExceptT.bindCont next answer between) = _
  cases first before with
  | mk answer between => cases answer <;> rfl

@[simp] theorem yields_pure {value answer : α} {before after : σ} :
    Yields (pure value) before answer after ↔ answer = value ∧ after = before := by
  constructor
  · intro answers
    cases answers
    exact ⟨rfl, rfl⟩
  · rintro ⟨rfl, rfl⟩
    rfl

/-- A composed step answers exactly when its two parts do. -/
theorem yields_bind {first : Step σ α} {next : α → Step σ β} {before after : σ} {answer : β} :
    Yields (first >>= next) before answer after ↔
      ∃ value between, Yields first before value between ∧
        Yields (next value) between answer after := by
  unfold Yields
  rw [bind_run]
  cases first before with
  | mk outcome between =>
    cases outcome with
    | error error =>
      constructor
      · intro answers
        cases answers
      · rintro ⟨_, _, answers, _⟩
        cases answers
    | ok value =>
      constructor
      · intro answers
        exact ⟨value, between, rfl, answers⟩
      · rintro ⟨_, _, answers, rest⟩
        cases answers
        exact rest

/-- A step whose answer is transformed answers when the step does. -/
theorem yields_map {step : Step σ α} {transform : α → β} {before after : σ} {answer : β} :
    Yields (transform <$> step) before answer after ↔
      ∃ value, Yields step before value after ∧ answer = transform value := by
  rw [map_eq_pure_bind, yields_bind]
  simp only [yields_pure]
  constructor
  · rintro ⟨value, _, answers, same, rfl⟩
    exact ⟨value, answers, same⟩
  · rintro ⟨value, answers, same⟩
    exact ⟨value, after, answers, same, rfl⟩

@[simp] theorem not_yields_throw {error : ParseError} {before after : σ} {answer : α} :
    ¬ Yields (throw error : Step σ α) before answer after := by
  intro answers
  cases answers

@[simp] theorem not_yields_throw_bind {error : ParseError} {next : α → Step σ β} {before after : σ}
    {answer : β} : ¬ Yields ((throw error : Step σ α) >>= next) before answer after := by
  intro answers
  cases answers

/-- A step answers one value and leaves one state. -/
theorem Yields.unique {step : Step σ α} {before first second : σ} {one other : α}
    (left : Yields step before one first) (right : Yields step before other second) :
    one = other ∧ first = second := by
  unfold Yields at left right
  rw [left] at right
  cases right
  exact ⟨rfl, rfl⟩

/-- A choice between two steps answers what the chosen one does. -/
theorem yields_ite {condition : Prop} [Decidable condition] {first second : Step σ α}
    {before after : σ} {answer : α} :
    Yields (if condition then first else second) before answer after ↔
      (condition ∧ Yields first before answer after) ∨
        (¬ condition ∧ Yields second before answer after) := by
  by_cases holds : condition
  · simp [holds]
  · simp [holds]

/-- The rounds of a repetition that ends with an answer. -/
inductive Rounds (body : β → Step σ (Round β γ)) : β → σ → γ → σ → Prop where
  | done {start : β} {before after : σ} {answer : γ} :
      Yields (body start) before (.done answer) after → Rounds body start before answer after
  | next {start following : β} {before between after : σ} {answer : γ} :
      Yields (body start) before (.next following) between →
        Rounds body following between answer after → Rounds body start before answer after

/-- The rounds of a repetition up to some place that it goes on from. -/
inductive Reaches (body : β → Step σ (Round β γ)) : β → σ → β → σ → Prop where
  | refl {start : β} {before : σ} : Reaches body start before start before
  | next {start following last : β} {before between after : σ} :
      Yields (body start) before (.next following) between →
        Reaches body following between last after → Reaches body start before last after

theorem Reaches.trans {body : β → Step σ (Round β γ)} {start middle last : β}
    {before between after : σ} (left : Reaches body start before middle between)
    (right : Reaches body middle between last after) : Reaches body start before last after := by
  induction left with
  | refl => exact right
  | next answers _ ih => exact .next answers (ih right)

theorem Reaches.rounds {body : β → Step σ (Round β γ)} {start middle : β} {before between after : σ}
    {answer : γ} (reaches : Reaches body start before middle between)
    (ran : Rounds body middle between answer after) : Rounds body start before answer after := by
  induction reaches with
  | refl => exact ran
  | next answers _ ih => exact .next answers (ih ran)

/-- The runs of a body that asks for another run until the last one. -/
inductive Repeats (body : Step σ Bool) : σ → σ → Prop where
  | last {before after : σ} : Yields body before false after → Repeats body before after
  | again {before between after : σ} : Yields body before true between →
      Repeats body between after → Repeats body before after

/-- A loop that answers ran its body, the last time without asking for another run. -/
theorem repeats_of_rounds {body : Step σ Bool} {start answer : Unit} {before after : σ}
    (ran : Rounds (fun _ => do return if ← body then .next () else .done ()) start before answer
      after) : Repeats body before after := by
  induction ran with
  | done answers =>
    obtain ⟨asked, _, ran, rest⟩ := yields_bind.mp answers
    cases asked with
    | false =>
      obtain ⟨_, rfl⟩ := yields_pure.mp rest
      exact .last ran
    | true => cases (yields_pure.mp rest).1
  | next answers _ ih =>
    obtain ⟨asked, _, ran, rest⟩ := yields_bind.mp answers
    cases asked with
    | false => cases (yields_pure.mp rest).1
    | true =>
      obtain ⟨_, rfl⟩ := yields_pure.mp rest
      exact .again ran ih

/-- A body that is run until it asks for no other run makes the rounds of a loop. -/
theorem rounds_of_repeats {body : Step σ Bool} {before after : σ} (ran : Repeats body before after) :
    Rounds (fun _ => do return if ← body then .next () else .done ()) () before () after := by
  induction ran with
  | last answers => exact .done (yields_bind.mpr ⟨false, _, answers, yields_pure.mpr ⟨rfl, rfl⟩⟩)
  | again answers _ ih =>
    exact .next (yields_bind.mpr ⟨true, _, answers, yields_pure.mpr ⟨rfl, rfl⟩⟩) ih

/-- The cursor of a state is a component of it. -/
class LawfulCursor (σ : Type) [HasCursor σ] : Prop where
  cursor_set : ∀ (cursor : Cursor) (state : σ),
    HasCursor.cursor (HasCursor.setCursor cursor state) = cursor
  set_cursor : ∀ state : σ, HasCursor.setCursor (HasCursor.cursor state) state = state

instance : LawfulCursor Cursor := ⟨fun _ _ => rfl, fun _ => rfl⟩

instance : LawfulCursor ExprState := ⟨fun _ _ => rfl, fun _ => rfl⟩

instance : LawfulCursor Analysis := ⟨fun _ _ => rfl, fun _ => rfl⟩

section Cursor
variable [HasCursor σ]

/-- A step on the cursor of a larger state answers what it answers on the cursor alone. -/
theorem yields_onCursor {scan : Scan α} {before after : σ} {answer : α} :
    Yields (liftM scan : Step σ α) before answer after ↔
      ∃ cursor, Yields scan (HasCursor.cursor before) answer cursor ∧
        after = HasCursor.setCursor cursor before := by
  change onCursor scan before = _ ↔ _
  unfold onCursor Yields
  cases scan (HasCursor.cursor before) with
  | mk outcome cursor =>
    constructor
    · intro answers
      cases answers
      exact ⟨cursor, rfl, rfl⟩
    · rintro ⟨_, answers, rfl⟩
      cases answers
      rfl

@[simp] theorem not_yields_fail {expected : Expectation} {before after : σ} {answer : α} :
    ¬ Yields (liftM (Scan.fail expected : Scan α) : Step σ α) before answer after := by
  intro answers
  cases answers

@[simp] theorem not_yields_fail_bind {expected : Expectation} {next : α → Step σ β}
    {before after : σ} {answer : β} :
    ¬ Yields ((liftM (Scan.fail expected : Scan α) : Step σ α) >>= next) before answer after := by
  intro answers
  cases answers

/-- Looking at the cursor changes nothing. -/
@[simp] theorem yields_look [LawfulCursor σ] {property : Cursor → α} {before after : σ}
    {answer : α} : Yields (liftM (Scan.look property) : Step σ α) before answer after ↔
      answer = property (HasCursor.cursor before) ∧ after = before := by
  rw [yields_onCursor]
  constructor
  · rintro ⟨_, looked, rfl⟩
    cases looked
    exact ⟨rfl, LawfulCursor.set_cursor before⟩
  · rintro ⟨seen, same⟩
    rw [seen, same]
    exact ⟨_, rfl, (LawfulCursor.set_cursor before).symm⟩

/-- A step behind a look at the cursor runs with what was seen. -/
theorem yields_look_bind [LawfulCursor σ] {property : Cursor → α} {next : α → Step σ β}
    {before after : σ} {answer : β} :
    Yields ((liftM (Scan.look property) : Step σ α) >>= next) before answer after ↔
      Yields (next (property (HasCursor.cursor before))) before answer after := by
  rw [yields_bind]
  constructor
  · rintro ⟨_, _, looked, rest⟩
    obtain ⟨rfl, rfl⟩ := yields_look.mp looked
    exact rest
  · intro rest
    exact ⟨_, _, yields_look.mpr ⟨rfl, rfl⟩, rest⟩

/-- Passing a token moves the cursor and changes nothing else. -/
@[simp] theorem yields_advance {before after : σ} {answer : Unit} :
    Yields (liftM Scan.advance : Step σ Unit) before answer after ↔
      after = HasCursor.setCursor (HasCursor.cursor before).advance before := by
  constructor
  · intro answers
    cases answers
    rfl
  · rintro rfl
    rfl

/-- A step behind a passed token runs at the next one. -/
theorem yields_advance_bind {next : Unit → Step σ β} {before after : σ} {answer : β} :
    Yields ((liftM Scan.advance : Step σ Unit) >>= next) before answer after ↔
      Yields (next ()) (HasCursor.setCursor (HasCursor.cursor before).advance before)
        answer after :=
  Iff.rfl

/-- A bounded repetition that answers ran through rounds. -/
theorem rounds_of_yields {body : β → Step σ (Round β γ)} {limit : Nat} {start : β}
    {before after : σ} {answer : γ} (answers : Yields (rounds body limit start) before answer after) :
    Rounds body start before answer after := by
  induction limit generalizing start before with
  | zero => cases answers
  | succ limit ih =>
    obtain ⟨round, between, first, rest⟩ := yields_bind.mp answers
    cases round with
    | next following => exact .next first (ih rest)
    | done result =>
      obtain ⟨rfl, rfl⟩ := yields_pure.mp rest
      exact .done first

/-- A repetition that answers ran through rounds. -/
theorem rounds_of_rounding [LawfulCursor σ] {body : β → Step σ (Round β γ)} {start : β}
    {before after : σ} {answer : γ} (answers : Yields (rounding body start) before answer after) :
    Rounds body start before answer after := by
  obtain ⟨limit, between, looked, rest⟩ := yields_bind.mp answers
  cases looked
  rw [LawfulCursor.set_cursor] at rest
  exact rounds_of_yields rest

/-- Rounds that move forward are within the bound of a repetition. -/
theorem yields_rounding_of_rounds [LawfulCursor σ] {body : β → Step σ (Round β γ)} {start : β}
    {before after : σ} {answer : γ} (ran : Rounds body start before answer after)
    (shrinks : ∀ {value following : β} {before between : σ},
      Yields (body value) before (.next following) between →
        (HasCursor.cursor between).rest.length < (HasCursor.cursor before).rest.length) :
    Yields (rounding body start) before answer after := by
  have bounded (limit : Nat) (enough : (HasCursor.cursor before).rest.length < limit) :
      Yields (rounds body limit start) before answer after := by
    induction ran generalizing limit with
    | done answers =>
      cases limit with
      | zero => exact absurd enough (Nat.not_lt_zero _)
      | succ limit => exact yields_bind.mpr ⟨_, _, answers, rfl⟩
    | next answers _ ih =>
      cases limit with
      | zero => exact absurd enough (Nat.not_lt_zero _)
      | succ limit =>
        exact yields_bind.mpr ⟨_, _, answers,
          ih limit (Nat.lt_of_lt_of_le (shrinks answers) (Nat.lt_succ_iff.mp enough))⟩
  exact yields_look_bind.mpr (bounded _ (Nat.lt_succ_self _))

/-- A repetition whose first round has the answer ends with that round. -/
theorem yields_rounding_of_done [LawfulCursor σ] {body : β → Step σ (Round β γ)} {start : β}
    {before after : σ} {answer : γ} (answers : Yields (body start) before (.done answer) after) :
    Yields (rounding body start) before answer after :=
  yields_look_bind.mpr (yields_bind.mpr ⟨_, _, answers, rfl⟩)

/-- A repetition of a body that says whether to go on runs the body until it does not. -/
theorem repeats_of_whileTrue [LawfulCursor σ] {body : Step σ Bool} {before after : σ}
    {answer : Unit} (answers : Yields (whileTrue body) before answer after) :
    Repeats body before after :=
  repeats_of_rounds (rounds_of_rounding answers)

/-- Runs of a body that moves forward whenever it asks for another run are within the bound of a
repetition. -/
theorem yields_whileTrue_of_repeats [LawfulCursor σ] {body : Step σ Bool} {before after : σ}
    (ran : Repeats body before after)
    (shrinks : ∀ {before between : σ}, Yields body before true between →
      (HasCursor.cursor between).rest.length < (HasCursor.cursor before).rest.length) :
    Yields (whileTrue body) before () after := by
  refine yields_rounding_of_rounds (rounds_of_repeats ran) fun answers => ?_
  obtain ⟨asked, _, ran, rest⟩ := yields_bind.mp answers
  cases asked with
  | false => cases (yields_pure.mp rest).1
  | true =>
    obtain ⟨_, rfl⟩ := yields_pure.mp rest
    exact shrinks ran

end Cursor

end SelectRouting.Step
