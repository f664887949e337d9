import SelectRouting.Proofs.FailingClauses
import SelectRouting.Proofs.QueryPassage
import SelectRouting.Proofs.TokenNumbers

/-!
# Runs of the cursor

Operations on a cursor may follow one another in any order, and each may answer or fail. Whatever has
been run before, the cursor stands at a token behind those that it has passed, and an operation moves it
over whole tokens (`CursorOperation.run_stands`).
-/

namespace SelectRouting

/-- The step run on a state around the cursor, of which the cursor is kept. -/
def Step.around {σ α : Type} [HasCursor σ] (state : Cursor → σ) (step : Step σ α) : Scan Unit :=
  fun cursor =>
    let (answer, after) := step (state cursor)
    (answer.map fun _ => (), HasCursor.cursor after)

/-- An operation on a cursor. -/
inductive CursorOperation where
  | advance
  | check (kind : TokenKind)
  | skip (kind : TokenKind)
  | expect (kind : TokenKind)
  | checkKeyword (words : List Keyword)
  | skipKeyword (words : List Keyword)
  | expectKeyword (word : Keyword)
  | parameter
  | group
  | join
  | aliasName
  | expression
  | comparand
  | limitValue
  /-- An item of `ORDER BY`, which is looked up in the statement. -/
  | orderItem (statement : Statement)

namespace CursorOperation

/-- The operation as a step, its answer left out. -/
def run : CursorOperation → Scan Unit
  | .advance => Scan.advance
  | .check kind => do let _ ← Scan.look (·.at? kind)
  | .skip kind => do let _ ← Scan.skipKind kind
  | .expect kind => Scan.expect kind
  | .checkKeyword words => do let _ ← Scan.look (·.atKeyword? words)
  | .skipKeyword words => do let _ ← Scan.skipAnyKeyword words
  | .expectKeyword word => Scan.expectKeyword word
  | .parameter => do let _ ← Scan.parameter
  | .group => do let _ ← Scan.group
  | .join => do let _ ← Scan.join
  | .aliasName => do let _ ← Scan.aliasName
  | .expression => Step.around (fun cursor => { cursor }) ExprStep.expression
  | .comparand => Step.around (fun cursor => { cursor }) ExprStep.comparand
  | .limitValue => do let _ ← Scan.limitValue
  | .orderItem statement => Step.around (fun cursor => { cursor, statement }) AnalysisStep.orderItem

/-- The operation counts the placeholders that it passes. The others pass a token of any kind. -/
def counts : CursorOperation → Bool
  | .advance | .skip _ | .expect _ => false
  | _ => true

/-- The operation requires the token at the cursor, and passes nothing where another one stands. -/
def requiresToken : CursorOperation → Bool
  | .expect _ | .expectKeyword _ | .parameter | .limitValue => true
  | _ => false

end CursorOperation

namespace Cursor

/-- The cursor behind the operations, each run where the one before it stops. -/
def runAll (cursor : Cursor) (operations : List CursorOperation) : Cursor :=
  operations.foldl (fun cursor operation => (operation.run cursor).2) cursor

/-- The cursor stands at a token of the text, at the latest at the end of the input. Before it are the
tokens `passed`, and the span that it remembers is that of the last of them. -/
structure StandsBehind (text : String) (passed : List Token) (cursor : Cursor) : Prop where
  same : cursor.text = text
  left : Token.list text = passed ++ cursor.rest
  current : ∃ behind, Token.tokenize text = passed ++ cursor.current :: behind
  previous : cursor.previous = (passed.getLast?.map Token.span).getD ⟨0, 0⟩
  ordered : cursor.previous.stop ≤ cursor.start

namespace StandsBehind
variable {text : String} {passed moved : List Token} {before after cursor : Cursor}

/-- The token last passed ends before the current one begins. -/
theorem of_left (same : cursor.text = text) (left : Token.list text = passed ++ cursor.rest)
    (previous : cursor.previous = (passed.getLast?.map Token.span).getD ⟨0, 0⟩) :
    StandsBehind text passed cursor := by
  obtain ⟨behind, ahead, _⟩ := ahead_eq cursor
  have split : Token.tokenize text = passed ++ cursor.current :: behind := by
    rw [← ahead, Cursor.ahead, Token.tokenize, left, same, List.append_assoc]
  refine ⟨same, left, ⟨behind, split⟩, previous, ?_⟩
  rw [previous]
  cases last : passed.getLast? with
  | none => exact Nat.zero_le _
  | some token =>
    have apart := Token.tokenize_pairwise text
    rw [split, List.pairwise_append] at apart
    exact apart.2.2 token (List.mem_of_getLast? last) _ List.mem_cons_self

theorem move (stands : StandsBehind text passed before) (moves : Moves before moved after) :
    StandsBehind text (passed ++ moved) after := by
  refine .of_left (moves.text.trans stands.same) ?_ ?_
  · rw [stands.left, moves.rest, List.append_assoc]
  · rw [moves.previous, stands.previous, List.getLast?_append]
    cases moved.getLast? <;> rfl

theorem lexed (stands : StandsBehind text passed cursor) : Token.AreLexed cursor.rest := by
  have lexed := Token.areLexed_list text
  rw [stands.left] at lexed
  exact lexed.right

end StandsBehind

end Cursor

namespace Step
open Cursor

/-- Around a cursor a step does what it does on the state. -/
theorem Orderly.around {σ α : Type} [HasCursor σ] {step : Step σ α} {state : Cursor → σ}
    (orderly : Orderly step) (keeps : ∀ cursor, HasCursor.cursor (state cursor) = cursor) :
    Orderly (Step.around state step) where
  runs {before} lexed := by
    rw [show HasCursor.cursor before = HasCursor.cursor (state before) from (keeps before).symm] at lexed
    have inner := orderly.runs lexed
    rw [keeps before] at inner
    refine ⟨?_, fun {error after} fails => ?_⟩
    · obtain ⟨passed, passes⟩ := inner.passes
      rw [keeps before] at passes
      exact ⟨passed, passes⟩
    · exact inner.blames (Prod.ext (error_of_map (congrArg Prod.fst fails)) rfl)

end Step

namespace CursorOperation
open Step Cursor

variable {operation : CursorOperation} {text : String} {passed : List Token} {cursor before : Cursor}

/-- An operation that counts is orderly. -/
theorem run_orderly (counts : operation.counts = true) : Orderly operation.run := by
  cases operation with
  | advance | skip | expect => cases counts
  | check => exact (Scan.look_orderly _).bind fun _ => .pure _
  | checkKeyword => exact (Scan.look_orderly _).bind fun _ => .pure _
  | skipKeyword => exact (Scan.skipAnyKeyword_orderly _).bind fun _ => .pure _
  | expectKeyword => exact Scan.expectKeyword_orderly _
  | parameter => exact Scan.parameter_orderly.bind fun _ => .pure _
  | group => exact Scan.group_orderly.bind fun _ => .pure _
  | join => exact Scan.join_orderly.bind fun _ => .pure _
  | aliasName => exact Scan.aliasName_orderly.bind fun _ => .pure _
  | expression => exact (ExprStep.expressionOf_orderly _).around fun _ => rfl
  | comparand => exact (ExprStep.expressionOf_orderly _).around fun _ => rfl
  | limitValue => exact Scan.limitValue_orderly.bind fun _ => .pure _
  | orderItem => exact AnalysisStep.orderItem_orderly.around fun _ => rfl

/-- An operation that does not count passes one token or none. -/
theorem run_advances (counts : operation.counts = false) :
    (operation.run before).2 = before.advance ∨ (operation.run before).2 = before := by
  cases operation with
  | advance => exact .inl rfl
  | skip kind =>
    rcases Scan.skipKind_cases kind before with ⟨_, skipped⟩ | ⟨_, skipped⟩
    · have ran : Yields (skip kind).run before () before.advance :=
        yields_bind.mpr ⟨_, _, skipped, rfl⟩
      exact .inl ran.snd
    · have ran : Yields (skip kind).run before () before := yields_bind.mpr ⟨_, _, skipped, rfl⟩
      exact .inr ran.snd
  | expect kind =>
    rcases Scan.skipKind_cases kind before with ⟨_, skipped⟩ | ⟨missing, _⟩
    · have ran : Yields (expect kind).run before () before.advance :=
        yields_bind.mpr ⟨_, _, skipped, rfl⟩
      exact .inl ran.snd
    · exact .inr (Scan.fails_expect.mpr ⟨missing, rfl, rfl⟩).snd
  | _ => cases counts

/-- An operation passes whole tokens, and counts the placeholders among them if it counts any. -/
theorem run_moves (operation : CursorOperation) (lexed : Token.AreLexed before.rest) :
    ∃ moved, Moves before moved (operation.run before).2 ∧ (operation.counts = true →
      (operation.run before).2.parameters = before.parameters + Token.placeholders moved) := by
  cases counts : operation.counts with
  | true =>
    obtain ⟨moved, passes⟩ := ((run_orderly counts).runs lexed).passes
    exact ⟨moved, passes.toMoves, fun _ => passes.parameters⟩
  | false =>
    rcases run_advances counts with advanced | stayed
    · obtain ⟨moved, moves⟩ := exists_moves_advance before
      exact ⟨moved, by rwa [advanced], nofun⟩
    · exact ⟨[], by rw [stayed]; exact .refl before, nofun⟩

/-- An operation that requires a token fails where it starts. -/
theorem run_unmoved {error : ParseError} {after : Cursor} (requires : operation.requiresToken = true)
    (fails : Fails operation.run before error after) : after = before := by
  cases operation with
  | expect => exact (Scan.fails_expect.mp fails).2.2
  | expectKeyword => exact (Scan.fails_expectKeyword.mp fails).2.2
  | parameter =>
    obtain failed | ⟨_, _, _, ended⟩ := fails_bind.mp fails
    · exact (Scan.fails_parameter.mp failed).2.2
    · exact absurd ended not_fails_pure
  | limitValue =>
    obtain failed | ⟨_, _, _, ended⟩ := fails_bind.mp fails
    · exact Scan.limitValue_unmoved failed
    · exact absurd ended not_fails_pure
  | _ => cases requires

/-- The cursor behind any operations stands behind the tokens that they have passed. -/
theorem runAll_stands (stands : StandsBehind text passed cursor) (operations : List CursorOperation) :
    ∃ moved, StandsBehind text (passed ++ moved) (cursor.runAll operations) := by
  induction operations generalizing passed cursor with
  | nil => exact ⟨[], by rwa [List.append_nil]⟩
  | cons operation operations ih =>
    obtain ⟨one, moves, _⟩ := operation.run_moves stands.lexed
    obtain ⟨more, rest⟩ := ih (stands.move moves)
    exact ⟨one ++ more, by rwa [← List.append_assoc]⟩

/-- Behind any operations the cursor stands at a token, at the latest at the end of the input, and it
remembers the span of the token before, which has ended by then. The operation that comes next, whether
it answers or fails, moves it over whole tokens; it counts the placeholders among them unless it passes a
token of any kind, and where it fails for want of one required token it passes none. -/
theorem run_stands (opened : ofText text = .ok cursor) (operations : List CursorOperation)
    (next : CursorOperation) :
    ∃ passed moved, StandsBehind text passed (cursor.runAll operations) ∧
      StandsBehind text (passed ++ moved) (next.run (cursor.runAll operations)).2 ∧
      (next.counts = true → (next.run (cursor.runAll operations)).2.parameters =
        (cursor.runAll operations).parameters + Token.placeholders moved) ∧
      (next.requiresToken = true → ∀ error after,
        Fails next.run (cursor.runAll operations) error after → after = cursor.runAll operations) := by
  obtain rfl := ofText_ok opened
  have starts : StandsBehind text [] { text, rest := Token.list text } := .of_left rfl rfl rfl
  obtain ⟨passed, stands⟩ := runAll_stands starts operations
  rw [List.nil_append] at stands
  obtain ⟨moved, moves, counted⟩ := next.run_moves stands.lexed
  exact ⟨passed, moved, stands, stands.move moves, counted,
    fun requires error after fails => run_unmoved requires fails⟩

/-- A call that is not closed fails at the end of the input, with its placeholder counted. -/
theorem run_stands_of_open_call :
    ∃ cursor : Cursor, ofText "x LIMIT ? f(?, (1" = .ok cursor ∧
      ∃ before, before = cursor.runAll [.advance, .expectKeyword .LIMIT, .limitValue] ∧
        before.parameters = 1 ∧
      ∃ after, after = (CursorOperation.expression.run before).2 ∧ after.parameters = 2 ∧
        after.atEnd = true ∧
      ∃ passed moved, StandsBehind "x LIMIT ? f(?, (1" passed before ∧
        StandsBehind "x LIMIT ? f(?, (1" (passed ++ moved) after ∧ Token.placeholders moved = 1 := by
  let cursor : Cursor := { text := "x LIMIT ? f(?, (1", rest := Token.list "x LIMIT ? f(?, (1" }
  have opened : ofText "x LIMIT ? f(?, (1" = .ok cursor := by decide +kernel
  have one : (cursor.runAll [.advance, .expectKeyword .LIMIT, .limitValue]).parameters = 1 := by
    decide +kernel
  have two : (CursorOperation.expression.run
      (cursor.runAll [.advance, .expectKeyword .LIMIT, .limitValue])).2.parameters = 2 := by
    decide +kernel
  have ended : (CursorOperation.expression.run
      (cursor.runAll [.advance, .expectKeyword .LIMIT, .limitValue])).2.atEnd = true := by
    decide +kernel
  obtain ⟨passed, moved, first, second, counted, _⟩ :=
    run_stands opened [.advance, .expectKeyword .LIMIT, .limitValue] .expression
  have count := counted rfl
  rw [one, two] at count
  exact ⟨cursor, opened, _, rfl, one, _, rfl, two, ended, passed, moved, first, second,
    (Nat.add_left_cancel count).symm⟩

end CursorOperation

end SelectRouting
