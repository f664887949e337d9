import Mathlib.Logic.Relation
import SelectRouting.Proofs.Lexing
import SelectRouting.Proofs.ScanPassage

/-!
# Runs that may fail

A step that fails has read something before it fails. Wherever it stops, it has passed whole tokens
and counted the placeholders among them, and its error is about a token that stood before it when it
began (`Step.Orderly`). Of a composed step both follow from its parts, so each reader has one lemma.
-/

namespace SelectRouting

/-- The error is about the token, with the tokens `behind` following it: it is not what is expected, it
begins a second query body, or a subquery begins there. -/
inductive ParseError.IsAbout (token : Token) (behind : List Token) : ParseError → Prop where
  | unexpected (expected : Expectation) : IsAbout token behind (.unexpected expected token.kind token.span)
  | unsupported {word : Keyword} : token.kind = .keyword word → word.isSetOperation = true →
      IsAbout token behind (.unsupported word token.span)
  | subquery : token.kind = .symbol .leftParen → Token.frontKind behind = .keyword .SELECT →
      IsAbout token behind (.subquery token.span)
  | existence : token.kind = .keyword .EXISTS → IsAbout token behind (.subquery token.span)

namespace Cursor

/-- The tokens from the cursor on, the end of the input last. -/
def ahead (cursor : Cursor) : List Token :=
  cursor.rest ++ [.eof cursor.text.utf8ByteSize]

/-- The error is about a token from the cursor on. -/
def Blames (cursor : Cursor) (error : ParseError) : Prop :=
  ∃ front token behind, cursor.ahead = front ++ token :: behind ∧ error.IsAbout token behind

variable {before between after : Cursor} {passed : List Token} {error : ParseError}

theorem Moves.ahead (moves : Moves before passed after) : before.ahead = passed ++ after.ahead := by
  unfold Cursor.ahead
  rw [moves.rest, moves.text, List.append_assoc]

/-- A token from the cursor on is one from any place before it on. -/
theorem Moves.blames (moves : Moves before passed after) (blames : after.Blames error) :
    before.Blames error := by
  obtain ⟨front, token, behind, stands, about⟩ := blames
  refine ⟨passed ++ front, token, behind, ?_, about⟩
  rw [moves.ahead, stands, List.append_assoc]

theorem ahead_eq (cursor : Cursor) : ∃ behind, cursor.ahead = cursor.current :: behind ∧
    Token.frontKind behind = (cursor.peek 1).kind := by
  unfold ahead current peek
  rcases cursor.rest with _ | ⟨_, _ | ⟨_, _⟩⟩ <;> exact ⟨_, rfl, rfl⟩

/-- An error at the current token is about it. -/
theorem blames_current {cursor : Cursor}
    (about : ∀ behind, Token.frontKind behind = (cursor.peek 1).kind →
      error.IsAbout cursor.current behind) : cursor.Blames error := by
  obtain ⟨behind, stands, next⟩ := ahead_eq cursor
  exact ⟨[], _, behind, stands, about behind next⟩

theorem blames_unexpected (cursor : Cursor) (expected : Expectation) :
    cursor.Blames (cursor.unexpected expected) :=
  blames_current fun _ _ => .unexpected expected

/-- A parenthesis before `SELECT` opens a subquery. -/
theorem blames_subquery {cursor : Cursor} (stands : cursor.kind = .symbol .leftParen)
    (opens : cursor.opensSubquery = true) : cursor.Blames (.subquery cursor.current.span) :=
  blames_current fun _ next => .subquery stands (next.trans (by simpa [opensSubquery] using opens))

theorem exists_moves_advance (cursor : Cursor) : ∃ passed, Moves cursor passed cursor.advance := by
  rcases advance_cases cursor with ⟨_, stays⟩ | ⟨token, _, moves⟩
  · exact ⟨[], by rw [stays]; exact .refl _⟩
  · exact ⟨[token], moves⟩

/-- A token that is no placeholder is passed without counting, if there is one. -/
theorem exists_passes_advance {cursor : Cursor} (uncounted : cursor.kind ≠ .symbol .question) :
    ∃ passed, Passes cursor passed cursor.advance := by
  rcases advance_cases cursor with ⟨_, stays⟩ | ⟨token, current, moves⟩
  · exact ⟨[], by rw [stays]; exact .refl _⟩
  · have other : token.kind ≠ .symbol .question := by
      rwa [← current]
    exact ⟨[token], moves, by simp [parameters_advance, Token.placeholders, other]⟩

theorem Passes.lexed (passes : Passes before passed after) (lexed : Token.AreLexed before.rest) :
    Token.AreLexed after.rest := by
  rw [passes.rest] at lexed
  exact lexed.right

end Cursor

namespace Step
open Cursor

variable {σ α β γ : Type}

/-- The step fails with `error` from the state `before` and leaves the state `after`. -/
def Fails (step : Step σ α) (before : σ) (error : ParseError) (after : σ) : Prop :=
  step before = (Except.error error, after)

@[simp] theorem not_fails_pure {value : α} {before after : σ} {error : ParseError} :
    ¬ Fails (pure value : Step σ α) before error after := by
  intro fails
  cases fails

@[simp] theorem fails_throw {thrown error : ParseError} {before after : σ} :
    Fails (throw thrown : Step σ α) before error after ↔ error = thrown ∧ after = before := by
  constructor
  · intro fails
    cases fails
    exact ⟨rfl, rfl⟩
  · rintro ⟨rfl, rfl⟩
    rfl

/-- A composed step fails in its first part, or in its second one behind an answer of the first. -/
theorem fails_bind {first : Step σ α} {next : α → Step σ β} {before after : σ} {error : ParseError} :
    Fails (first >>= next) before error after ↔ Fails first before error after ∨
      ∃ value between, Yields first before value between ∧ Fails (next value) between error after := by
  unfold Fails Yields
  rw [bind_run]
  cases first before with
  | mk outcome between =>
    cases outcome with
    | error thrown =>
      constructor
      · intro fails
        cases fails
        exact .inl rfl
      · rintro (fails | ⟨_, _, answers, _⟩)
        · cases fails
          rfl
        · cases answers
    | ok value =>
      constructor
      · intro fails
        exact .inr ⟨value, between, rfl, fails⟩
      · rintro (fails | ⟨_, _, answers, fails⟩)
        · cases fails
        · cases answers
          exact fails

/-- A choice between two steps fails as the chosen one does. -/
theorem fails_ite {condition : Prop} [Decidable condition] {first second : Step σ α} {before after : σ}
    {error : ParseError} : Fails (if condition then first else second) before error after ↔
      (condition ∧ Fails first before error after) ∨ (¬ condition ∧ Fails second before error after) := by
  by_cases holds : condition
  · simp [holds]
  · simp [holds]

/-- A step on the cursor of a larger state fails as it does on the cursor alone. -/
theorem fails_onCursor [HasCursor σ] {scan : Scan α} {before after : σ} {error : ParseError} :
    Fails (liftM scan : Step σ α) before error after ↔
      ∃ cursor, Fails scan (HasCursor.cursor before) error cursor ∧
        after = HasCursor.setCursor cursor before := by
  change onCursor scan before = _ ↔ _
  unfold onCursor Fails
  cases scan (HasCursor.cursor before) with
  | mk outcome cursor =>
    constructor
    · intro fails
      cases fails
      exact ⟨cursor, rfl, rfl⟩
    · rintro ⟨_, fails, rfl⟩
      cases fails
      rfl

/-- A step behind a look at the cursor fails as it does with what was seen. -/
theorem fails_look_bind [HasCursor σ] [LawfulCursor σ] {property : Cursor → α} {next : α → Step σ β}
    {before after : σ} {error : ParseError} :
    Fails ((liftM (Scan.look property) : Step σ α) >>= next) before error after ↔
      Fails (next (property (HasCursor.cursor before))) before error after := by
  rw [fails_bind]
  constructor
  · rintro (looked | ⟨_, _, looked, fails⟩)
    · cases looked
    · obtain ⟨rfl, rfl⟩ := yields_look.mp looked
      exact fails
  · intro fails
    exact .inr ⟨_, _, yields_look.mpr ⟨rfl, rfl⟩, fails⟩

/-- The step answers from every state. -/
structure NeverFails (step : Step σ α) : Prop where
  absurd : ∀ {before after : σ} {error : ParseError}, ¬ Fails step before error after

namespace NeverFails

theorem pure (value : α) : NeverFails (pure value : Step σ α) :=
  ⟨not_fails_pure⟩

theorem bind {first : Step σ α} {next : α → Step σ β} (left : NeverFails first)
    (right : ∀ value, NeverFails (next value)) : NeverFails (first >>= next) where
  absurd fails := by
    rcases fails_bind.mp fails with fails | ⟨value, _, _, fails⟩
    · exact left.absurd fails
    · exact (right value).absurd fails

theorem ite {condition : Prop} [Decidable condition] {first second : Step σ α} (left : NeverFails first)
    (right : NeverFails second) : NeverFails (if condition then first else second) := by
  split
  · exact left
  · exact right

theorem scan [HasCursor σ] {scan : Scan α} (never : NeverFails scan) :
    NeverFails (liftM scan : Step σ α) where
  absurd fails := by
    obtain ⟨_, fails, _⟩ := fails_onCursor.mp fails
    exact never.absurd fails

end NeverFails

/-- An answer that is transformed fails with the error that was there before. -/
theorem error_of_map {outcome : Except ParseError α} {transform : α → β} {error : ParseError}
    (failed : outcome.map transform = .error error) : outcome = .error error := by
  cases outcome with
  | error thrown => exact congrArg Except.error (Except.error.inj failed)
  | ok answer => cases failed

/-- A step answers or fails. -/
theorem yields_or_fails (step : Step σ α) (before : σ) :
    (∃ answer after, Yields step before answer after) ∨ ∃ error after, Fails step before error after := by
  unfold Yields Fails
  cases step before with
  | mk outcome after =>
    cases outcome with
    | error error => exact .inr ⟨error, after, rfl⟩
    | ok answer => exact .inl ⟨answer, after, rfl⟩

theorem Yields.snd {step : Step σ α} {before after : σ} {answer : α}
    (answers : Yields step before answer after) : (step before).2 = after :=
  congrArg Prod.snd answers

theorem Fails.snd {step : Step σ α} {before after : σ} {error : ParseError}
    (fails : Fails step before error after) : (step before).2 = after :=
  congrArg Prod.snd fails

/-- Rounds up to one that fails, when each of them moves forward, are those of a repetition that fails
alike. -/
theorem fails_rounding_of_reaches [HasCursor σ] [LawfulCursor σ] {body : β → Step σ (Round β γ)}
    {start last : β} {before between after : σ} {error : ParseError}
    (reaches : Reaches body start before last between) (fails : Fails (body last) between error after)
    (shrinks : ∀ {value following : β} {before between : σ},
      Yields (body value) before (.next following) between →
        (HasCursor.cursor between).rest.length < (HasCursor.cursor before).rest.length) :
    Fails (rounding body start) before error after := by
  have bounded (limit : Nat) (enough : (HasCursor.cursor before).rest.length < limit) :
      Fails (rounds body limit start) before error after := by
    induction reaches generalizing limit with
    | refl =>
      cases limit with
      | zero => exact absurd enough (Nat.not_lt_zero _)
      | succ limit => exact fails_bind.mpr (.inl fails)
    | next answers _ ih =>
      cases limit with
      | zero => exact absurd enough (Nat.not_lt_zero _)
      | succ limit =>
        exact fails_bind.mpr (.inr ⟨_, _, answers,
          ih fails limit (Nat.lt_of_lt_of_le (shrinks answers) (Nat.lt_succ_iff.mp enough))⟩)
  exact fails_bind.mpr (.inr ⟨_, _, yields_look.mpr ⟨rfl, rfl⟩, bounded _ (Nat.lt_succ_self _)⟩)

/-- A loop fails in a run of its body behind runs that asked for another one, or where it stops without an
answer. -/
theorem fails_whileTrue [HasCursor σ] [LawfulCursor σ] {body : Step σ Bool} {before after : σ}
    {error : ParseError} (fails : Fails (whileTrue body) before error after) :
    ∃ between, Relation.ReflTransGen (fun before after => Yields body before true after) before between ∧
      (Fails body between error after ∨
        error = (HasCursor.cursor between).unexpected .endOfStatement) := by
  replace fails := fails_look_bind.mp fails
  generalize (HasCursor.cursor before).rest.length + 1 = limit at fails
  induction limit generalizing before with
  | zero =>
    obtain ⟨_, failed, _⟩ := fails_onCursor.mp fails
    cases failed
    exact ⟨before, .refl, .inr rfl⟩
  | succ limit ih =>
    rcases fails_bind.mp fails with fails | ⟨_, _, answers, fails⟩
    · rcases fails_bind.mp fails with fails | ⟨_, _, _, fails⟩
      · exact ⟨before, .refl, .inl fails⟩
      · exact absurd fails not_fails_pure
    · obtain ⟨again, _, ran, rest⟩ := yields_bind.mp answers
      obtain ⟨rfl, rfl⟩ := yields_pure.mp rest
      cases again with
      | false => exact absurd fails not_fails_pure
      | true =>
        obtain ⟨between, reaches, ends⟩ := ih fails
        exact ⟨between, .head ran reaches, ends⟩

section Orderly
variable [HasCursor σ]

/-- From this state on the step passes whole tokens and counts the placeholders among them, whether it
answers or fails; its error is about a token from `origin` on. -/
structure OrderlyAt (origin : Cursor) (step : Step σ α) (before : σ) : Prop where
  passes : ∃ passed, Passes (HasCursor.cursor before) passed (HasCursor.cursor (step before).2)
  blames : ∀ {error : ParseError} {after : σ}, Fails step before error after → origin.Blames error

/-- From every state whose tokens are those of a text the step passes whole tokens and blames one that
it came to. -/
structure Orderly (step : Step σ α) : Prop where
  runs : ∀ {before : σ}, Token.AreLexed (HasCursor.cursor before).rest →
    OrderlyAt (HasCursor.cursor before) step before

variable {origin : Cursor} {before : σ}

theorem OrderlyAt.pure (value : α) : OrderlyAt origin (pure value : Step σ α) before where
  passes := ⟨[], .refl _⟩
  blames fails := absurd fails not_fails_pure

theorem OrderlyAt.throw {thrown : ParseError} (blames : origin.Blames thrown) :
    OrderlyAt origin (throw thrown : Step σ α) before where
  passes := ⟨[], .refl _⟩
  blames fails := by
    obtain ⟨rfl, _⟩ := fails_throw.mp fails
    exact blames

theorem OrderlyAt.of_yields {step : Step σ α} {after : σ} {answer : α} {passed : List Token}
    (answers : Yields step before answer after)
    (passes : Passes (HasCursor.cursor before) passed (HasCursor.cursor after)) :
    OrderlyAt origin step before where
  passes := ⟨passed, by rwa [answers.snd]⟩
  blames fails := by
    unfold Yields at answers
    unfold Fails at fails
    rw [answers] at fails
    cases fails

theorem OrderlyAt.of_fails {step : Step σ α} {error : ParseError} (fails : Fails step before error before)
    (blames : origin.Blames error) : OrderlyAt origin step before where
  passes := ⟨[], by rw [fails.snd]; exact .refl _⟩
  blames again := by
    unfold Fails at fails again
    rw [fails] at again
    cases again
    exact blames

/-- Behind a part of a step the rest of it goes on. -/
theorem OrderlyAt.bind {first : Step σ α} {next : α → Step σ β} (left : OrderlyAt origin first before)
    (right : ∀ {value between passed}, Yields first before value between →
      Passes (HasCursor.cursor before) passed (HasCursor.cursor between) →
        OrderlyAt origin (next value) between) : OrderlyAt origin (first >>= next) before where
  passes := by
    obtain ⟨passed, passes⟩ := left.passes
    rw [bind_run]
    rcases yields_or_fails first before with ⟨value, between, answers⟩ | ⟨error, after, fails⟩
    · rw [answers.snd] at passes
      obtain ⟨more, rest⟩ := (right answers passes).passes
      rw [answers]
      exact ⟨passed ++ more, passes.trans rest⟩
    · rw [fails.snd] at passes
      rw [fails]
      exact ⟨passed, passes⟩
  blames fails := by
    obtain ⟨passed, passes⟩ := left.passes
    rcases fails_bind.mp fails with fails | ⟨value, between, answers, fails⟩
    · exact left.blames fails
    · rw [answers.snd] at passes
      exact (right answers passes).blames fails

/-- What is blamed from a place on is blamed from any place before it on. -/
theorem OrderlyAt.since {step : Step σ α} {earlier : Cursor} {passed : List Token}
    (orderly : OrderlyAt origin step before) (moves : Moves earlier passed origin) :
    OrderlyAt earlier step before :=
  ⟨orderly.passes, fun fails => moves.blames (orderly.blames fails)⟩

/-- On a larger state a scan does what it does on the cursor. -/
theorem OrderlyAt.scan [LawfulCursor σ] {scan : Scan α}
    (orderly : OrderlyAt origin scan (HasCursor.cursor before)) :
    OrderlyAt origin (liftM scan : Step σ α) before where
  passes := by
    have left : HasCursor.cursor ((liftM scan : Step σ α) before).2 =
        (scan (HasCursor.cursor before)).2 :=
      LawfulCursor.cursor_set _ before
    rw [left]
    exact orderly.passes
  blames fails := by
    obtain ⟨_, fails, _⟩ := fails_onCursor.mp fails
    exact orderly.blames fails

namespace Orderly

theorem pure (value : α) : Orderly (pure value : Step σ α) :=
  ⟨fun _ => .pure value⟩

/-- Where the step answers, it has passed whole tokens and counted the placeholders among them. -/
theorem passes_of_yields {step : Step σ α} (orderly : Orderly step) {before after : σ} {answer : α}
    (answers : Yields step before answer after) (lexed : Token.AreLexed (HasCursor.cursor before).rest) :
    ∃ passed, Passes (HasCursor.cursor before) passed (HasCursor.cursor after) := by
  obtain ⟨passed, passes⟩ := (orderly.runs lexed).passes
  rw [answers.snd] at passes
  exact ⟨passed, passes⟩

/-- The second part of a step runs where the first one stops. -/
theorem bind_of_yields {first : Step σ α} {next : α → Step σ β} (left : Orderly first)
    (right : ∀ {before value between}, Yields first before value between →
      Token.AreLexed (HasCursor.cursor between).rest →
        OrderlyAt (HasCursor.cursor between) (next value) between) : Orderly (first >>= next) where
  runs lexed := .bind (left.runs lexed) fun answers passes =>
    (right answers (passes.lexed lexed)).since passes.toMoves

theorem bind {first : Step σ α} {next : α → Step σ β} (left : Orderly first)
    (right : ∀ value, Orderly (next value)) : Orderly (first >>= next) :=
  left.bind_of_yields fun _ lexed => (right _).runs lexed

theorem map {step : Step σ α} (orderly : Orderly step) (transform : α → β) :
    Orderly (transform <$> step) := by
  rw [map_eq_pure_bind]
  exact orderly.bind fun _ => .pure _

theorem ite {condition : Prop} [Decidable condition] {first second : Step σ α} (left : Orderly first)
    (right : Orderly second) : Orderly (if condition then first else second) := by
  split
  · exact left
  · exact right

/-- A bounded repetition of an orderly body is orderly, also where it runs out of rounds. -/
theorem rounds [LawfulCursor σ] {body : β → Step σ (Round β γ)} (round : ∀ value, Orderly (body value))
    (limit : Nat) (start : β) : Orderly (Step.rounds body limit start) := by
  induction limit generalizing start with
  | zero =>
    refine ⟨fun {before} _ => ⟨⟨[], ?_⟩, fun fails => ?_⟩⟩
    · change Passes _ [] (HasCursor.cursor (HasCursor.setCursor (HasCursor.cursor before) before))
      rw [LawfulCursor.set_cursor]
      exact .refl _
    · cases fails
      exact blames_unexpected _ _
  | succ limit ih =>
    refine (round start).bind fun turn => ?_
    cases turn with
    | next following => exact ih following
    | done answer => exact .pure answer

variable [LawfulCursor σ]

theorem scan {scan : Scan α} (orderly : Orderly scan) : Orderly (liftM scan : Step σ α) :=
  ⟨fun lexed => .scan (orderly.runs lexed)⟩

theorem rounding {body : β → Step σ (Round β γ)} (round : ∀ value, Orderly (body value)) (start : β) :
    Orderly (Step.rounding body start) :=
  (scan ⟨fun _ => .of_yields rfl (.refl _)⟩).bind fun left => .rounds round (left + 1) start

theorem whileTrue {body : Step σ Bool} (round : Orderly body) : Orderly (Step.whileTrue body) :=
  .rounding (fun _ => round.bind fun _ => .pure _) ()

end Orderly

end Orderly

end Step

namespace Scan
open Step Cursor

section Failures
variable {before after : Cursor} {error : ParseError}

theorem look_neverFails {α : Type} (property : Cursor → α) : NeverFails (look property) :=
  ⟨fun fails => by cases fails⟩

theorem advance_neverFails : NeverFails advance :=
  ⟨fun fails => by cases fails⟩

theorem skipWhen_neverFails (property : Cursor → Bool) : NeverFails (skipWhen property) :=
  (look_neverFails _).bind fun _ => .ite (advance_neverFails.bind fun _ => .pure _) (.pure _)

theorem aliasName_neverFails : NeverFails aliasName := by
  have taken : NeverFails (do
      let written ← look (·.lexeme)
      advance
      return some (Text.stripQuotes written) : Scan (Option String)) :=
    (look_neverFails _).bind fun _ => advance_neverFails.bind fun _ => .pure _
  exact (skipWhen_neverFails _).bind fun _ => .ite
    ((look_neverFails _).bind fun _ => .ite taken (.pure _))
    ((look_neverFails _).bind fun _ => .ite taken (.pure _))

/-- A scan behind a look at the cursor fails as it does with what was seen. -/
theorem fails_look_bind {α β : Type} {property : Cursor → α} {next : α → Scan β} :
    Fails (look property >>= next) before error after ↔ Fails (next (property before)) before error after :=
  Iff.rfl

@[simp] theorem fails_fail {α : Type} {expected : Expectation} :
    Fails (fail expected : Scan α) before error after ↔
      error = before.unexpected expected ∧ after = before := by
  constructor
  · intro fails
    cases fails
    exact ⟨rfl, rfl⟩
  · rintro ⟨rfl, rfl⟩
    rfl

theorem skipKind_cases (kind : TokenKind) (before : Cursor) :
    (before.at? kind = true ∧ Yields (skipKind kind) before true before.advance) ∨
      (before.at? kind = false ∧ Yields (skipKind kind) before false before) := by
  cases stands : before.at? kind with
  | true => exact .inl ⟨rfl, yields_skipWhen.mpr (.inl ⟨stands, rfl, rfl⟩)⟩
  | false => exact .inr ⟨rfl, yields_skipWhen.mpr (.inr ⟨stands, rfl, rfl⟩)⟩

/-- What is required and does not stand here is missed here, and nothing is passed. -/
theorem fails_required {property : Cursor → Bool} {expected : Expectation} :
    Fails (do unless ← skipWhen property do fail expected) before error after ↔
      property before = false ∧ error = before.unexpected expected ∧ after = before := by
  rw [fails_bind]
  constructor
  · rintro (skipped | ⟨found, between, skipped, rest⟩)
    · exact absurd skipped (skipWhen_neverFails _).absurd
    · rcases yields_skipWhen.mp skipped with ⟨_, rfl, rfl⟩ | ⟨missing, rfl, rfl⟩
      · exact absurd rest not_fails_pure
      · exact ⟨missing, fails_fail.mp rest⟩
  · rintro ⟨missing, failed⟩
    exact .inr ⟨false, before, yields_skipWhen.mpr (.inr ⟨missing, rfl, rfl⟩), fails_fail.mpr failed⟩

theorem fails_expect {kind : TokenKind} : Fails (expect kind) before error after ↔
    before.at? kind = false ∧ error = before.unexpected (.kind kind) ∧ after = before :=
  fails_required

theorem fails_expectKeyword {word : Keyword} : Fails (expectKeyword word) before error after ↔
    before.atKeyword? [word] = false ∧ error = before.unexpected (.keyword word) ∧ after = before :=
  fails_required

theorem fails_parameter : Fails parameter before error after ↔ before.at? (.symbol .question) = false ∧
    error = before.unexpected (.kind (.symbol .question)) ∧ after = before := by
  rw [← fails_expect]
  unfold parameter
  rw [fails_bind]
  constructor
  · rintro (fails | ⟨_, _, _, rest⟩)
    · exact fails
    · cases rest
  · exact .inl

end Failures

section Orderly

theorem look_orderly {α : Type} (property : Cursor → α) : Orderly (look property) where
  runs _ := .of_yields rfl (.refl _)

theorem fail_orderly {α : Type} (expected : Expectation) : Orderly (fail expected : Scan α) where
  runs {before} _ := .of_fails rfl (blames_unexpected before expected)

/-- A scan behind a look at the cursor runs with what was seen. -/
theorem look_bind_orderly {α β : Type} {property : Cursor → α} {next : α → Scan β}
    (runs : ∀ {before : Cursor}, Token.AreLexed before.rest →
      OrderlyAt before (next (property before)) before) : Orderly (look property >>= next) :=
  (look_orderly property).bind_of_yields fun looked lexed => by
    obtain ⟨rfl, rfl⟩ := yields_look.mp looked
    exact runs lexed

theorem advance_orderly {origin before : Cursor} (uncounted : before.kind ≠ .symbol .question) :
    OrderlyAt origin advance before := by
  obtain ⟨passed, passes⟩ := exists_passes_advance uncounted
  exact .of_yields rfl passes

/-- A token that the property holds at, and that is no placeholder, is passed. -/
theorem skipWhen_orderly {property : Cursor → Bool}
    (uncounted : ∀ {cursor : Cursor}, Token.AreLexed cursor.rest → property cursor = true →
      cursor.kind ≠ .symbol .question) : Orderly (skipWhen property) := by
  refine look_bind_orderly fun {before} lexed => ?_
  split
  · next holds =>
    exact .bind (advance_orderly (uncounted lexed holds)) fun _ _ => .pure true
  · exact .pure false

theorem skipSymbol_orderly {mark : Symbol} (uncounted : mark ≠ .question) : Orderly (skipSymbol mark) :=
  skipWhen_orderly fun _ stands => by
    rw [at?_symbol.mp stands]
    simpa using uncounted

theorem skipAnyKeyword_orderly (words : List Keyword) : Orderly (skipAnyKeyword words) :=
  skipWhen_orderly fun _ stands => by
    obtain ⟨word, _, named⟩ := atKeyword?_iff.mp stands
    simp [named]

theorem skipKeyword_orderly (word : Keyword) : Orderly (skipKeyword word) :=
  skipAnyKeyword_orderly [word]

theorem expectSymbol_orderly {mark : Symbol} (uncounted : mark ≠ .question) :
    Orderly (expectSymbol mark) :=
  (skipSymbol_orderly uncounted).bind fun _ => .ite (.pure ()) (fail_orderly _)

theorem expectKeyword_orderly (word : Keyword) : Orderly (expectKeyword word) :=
  (skipKeyword_orderly word).bind fun _ => .ite (.pure ()) (fail_orderly _)

/-- A token that spells a word is no placeholder. -/
theorem uncounted_of_word {cursor : Cursor} {word : String} (lexed : Token.AreLexed cursor.rest)
    (stands : cursor.atWord? word = true)
    (letter : (word.toList.head?.map Char.toLower).any Char.isAlpha = true) :
    cursor.kind ≠ .symbol .question := by
  intro placeholder
  obtain ⟨token, rest, tokens, named, current⟩ := exists_token placeholder (by simp)
  rw [atWord?, lexeme, current] at stands
  have written := (lexed token (by simp [tokens])).isWritten_of_word stands letter
  simp [named, TokenKind.isWritten, TokenKind.isSymbol] at written

theorem parameter_orderly : Orderly parameter where
  runs {before} _ := by
    rcases skipKind_cases (.symbol .question) before with ⟨stands, skipped⟩ | ⟨missing, _⟩
    · obtain ⟨token, _, _, passes⟩ := passes_placeholder (at?_symbol.mp stands)
      have expected : Yields (expectSymbol .question) before () before.advance :=
        yields_bind.mpr ⟨true, _, skipped, yields_pure.mpr ⟨rfl, rfl⟩⟩
      have counted : Yields parameter before before.advance.parameters before.advance.countParameter :=
        yields_bind.mpr ⟨(), _, expected, rfl⟩
      exact .of_yields counted passes
    · exact .of_fails (fails_parameter.mpr ⟨missing, rfl, rfl⟩) (blames_unexpected _ _)

theorem groupRound_orderly (depth : Nat) : Orderly (groupRound depth) := by
  unfold groupRound
  refine look_bind_orderly fun {before} lexed => ?_
  split <;> simp only [pure_bind]
  · next opening => exact .bind (advance_orderly (by simp [opening])) fun _ _ => .pure _
  · next closing => exact .bind (advance_orderly (by simp [closing])) fun _ _ => .pure _
  · next placeholder =>
    obtain ⟨token, _, _, passes⟩ := passes_placeholder placeholder
    rw [← advance_countParameter] at passes
    exact .of_yields rfl passes
  · exact .bind ((fail_orderly _).runs lexed) fun answers _ => absurd answers not_yields_fail
  · next uncounted _ => exact .bind (advance_orderly uncounted) fun _ _ => .pure _

theorem group_orderly : Orderly group := by
  unfold group
  refine (look_orderly _).bind fun _ => .ite ((look_orderly _).bind fun _ => ?_) (.pure _)
  exact (Orderly.rounding groupRound_orderly 0).bind fun _ => look_orderly _

/-- A token that reads as an alias is passed. -/
theorem taken_orderly {before : Cursor} (uncounted : before.kind ≠ .symbol .question) :
    OrderlyAt before
      (do
        let written ← look (·.lexeme)
        advance
        return some (Text.stripQuotes written) : Scan (Option String)) before :=
  .bind (.of_yields rfl (.refl _)) fun looked _ => by
    obtain ⟨rfl, rfl⟩ := yields_look.mp looked
    exact .bind (advance_orderly uncounted) fun _ _ => .pure _

theorem aliasName_orderly : Orderly aliasName := by
  unfold aliasName
  refine (skipKeyword_orderly _).bind fun _ => .ite (look_bind_orderly fun {before} lexed => ?_)
    (look_bind_orderly fun {before} lexed => ?_)
  · by_cases stands : before.atSymbolOrEnd = true
    · simp only [stands, Bool.not_true, Bool.false_eq_true, if_false]
      exact .pure _
    · have noSymbol := (atSymbolOrEnd_eq_false.mp (Bool.eq_false_iff.mpr stands)).1
      simp only [stands, Bool.not_false, if_true]
      exact taken_orderly fun placeholder => by simp [placeholder, TokenKind.isSymbol] at noSymbol
  · split
    · next named => exact taken_orderly (by simp [named])
    · next quoted => exact taken_orderly (by simp [quoted])
    · exact .pure _

theorem joinAnnouncement_orderly : Orderly joinAnnouncement := by
  unfold joinAnnouncement
  refine (skipKeyword_orderly _).bind fun _ => .ite ?_ ((skipAnyKeyword_orderly _).bind fun _ => .ite ?_ ?_)
  · exact (skipAnyKeyword_orderly _).bind fun _ =>
      .ite ((skipKeyword_orderly _).bind fun _ => .pure _) (.pure _)
  · exact (skipKeyword_orderly _).bind fun _ => .pure _
  · exact skipAnyKeyword_orderly _

theorem join_orderly : Orderly join := by
  unfold join
  refine (skipSymbol_orderly (by simp)).bind fun _ => .ite (.pure _) ?_
  refine (skipAnyKeyword_orderly _).bind fun _ => .ite (.pure _) ?_
  exact joinAnnouncement_orderly.bind fun _ =>
    .ite ((expectKeyword_orderly _).bind fun _ => .pure _) (.pure _)

end Orderly

end Scan

namespace Step
variable {σ α β : Type} [HasCursor σ]

/-- A part of a step that is orderly from this state on, and another one behind it. -/
theorem OrderlyAt.andThen {first : Step σ α} {next : α → Step σ β} {before : σ}
    (left : OrderlyAt (HasCursor.cursor before) first before)
    (lexed : Token.AreLexed (HasCursor.cursor before).rest) (right : ∀ value, Orderly (next value)) :
    OrderlyAt (HasCursor.cursor before) (first >>= next) before :=
  left.bind fun _ passes => ((right _).runs (passes.lexed lexed)).since passes.toMoves

theorem OrderlyAt.throw_bind {origin : Cursor} {before : σ} {thrown : ParseError} {next : α → Step σ β}
    (blames : origin.Blames thrown) :
    OrderlyAt origin ((MonadExcept.throw thrown : Step σ α) >>= next) before :=
  .bind (.throw blames) fun answers _ => absurd answers not_yields_throw

variable [LawfulCursor σ]

/-- A token that is no placeholder is passed, and the rest of the step goes on behind it. -/
theorem OrderlyAt.passing {before : σ} {next : Unit → Step σ β}
    (uncounted : (HasCursor.cursor before).kind ≠ .symbol .question)
    (lexed : Token.AreLexed (HasCursor.cursor before).rest) (right : Orderly (next ())) :
    OrderlyAt (HasCursor.cursor before) ((liftM Scan.advance : Step σ Unit) >>= next) before :=
  (OrderlyAt.scan (Scan.advance_orderly uncounted)).andThen lexed fun _ => right

namespace Orderly

theorem look {property : Cursor → α} : Orderly (liftM (Scan.look property) : Step σ α) :=
  .scan (Scan.look_orderly property)

theorem fail {expected : Expectation} : Orderly (liftM (Scan.fail expected : Scan α) : Step σ α) :=
  .scan (Scan.fail_orderly expected)

theorem fail_bind {expected : Expectation} {next : α → Step σ β} :
    Orderly ((liftM (Scan.fail expected : Scan α) : Step σ α) >>= next) :=
  fail.bind_of_yields fun answers _ => absurd answers not_yields_fail

/-- A step behind a look at the cursor runs with what was seen. -/
theorem look_bind {property : Cursor → α} {next : α → Step σ β}
    (runs : ∀ {before : σ}, Token.AreLexed (HasCursor.cursor before).rest →
      OrderlyAt (HasCursor.cursor before) (next (property (HasCursor.cursor before))) before) :
    Orderly ((liftM (Scan.look property) : Step σ α) >>= next) :=
  look.bind_of_yields fun looked lexed => by
    obtain ⟨rfl, rfl⟩ := yields_look.mp looked
    exact runs lexed

/-- A step that asks for a token that is neither a symbol nor the end of the input. -/
theorem inside {expected : Expectation} {next : Step σ β}
    (runs : ∀ {before : σ}, Token.AreLexed (HasCursor.cursor before).rest →
      (HasCursor.cursor before).kind ≠ .symbol .question →
        OrderlyAt (HasCursor.cursor before) next before) :
    Orderly (do
      if ← Scan.look (·.atSymbolOrEnd) then Scan.fail expected
      next : Step σ β) := by
  refine look_bind fun {before} lexed => ?_
  split
  · exact fail_bind.runs lexed
  · next stands =>
    have noSymbol := (Cursor.atSymbolOrEnd_eq_false.mp (Bool.eq_false_iff.mpr stands)).1
    exact runs lexed fun placeholder => by simp [placeholder, TokenKind.isSymbol] at noSymbol

end Orderly

end Step

end SelectRouting
