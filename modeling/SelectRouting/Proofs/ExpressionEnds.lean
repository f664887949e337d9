import SelectRouting.Proofs.Query

/-!
# Where an expression begins and ends

The projection list passes the tokens of an expression without reading it, and looks there for a
token that ends the item and for a name at its end that reads as an alias. The reader of expressions
leaves it none of either: outside of parentheses no semicolon stands (`Phrase.noSemicolon_of_fit`),
and a name or a literal at the end of an expression stands behind a token that joins it to what is
before it, unless it stands alone (`ExprStep.expressionOf_concludes`).
-/

namespace SelectRouting

/-- The kind is an operator, a delimiter or a keyword. -/
def TokenKind.isMark : TokenKind → Bool
  | .symbol _ | .keyword _ => true
  | _ => false

theorem TokenKind.isMark_of_readsAsAlias {kind : TokenKind} (reads : kind.readsAsAlias = true) :
    kind.isMark = false := by
  cases kind <;> first | rfl | cases reads

namespace Token
open AnalysisStep

/-- The token joins what stands behind it to what is before it: nothing behind it reads as an alias,
or it is the word before an escape character. -/
def Joins (token : Token) : Prop :=
  aliasMayFollow token.kind = false ∨ Text.sameIgnoringCase token.lexeme "ESCAPE" = true

/-- The tokens end as an expression does: a name or a literal at their end stands alone, or behind a
token that joins it to the tokens before. -/
inductive Concludes : List Token → Prop where
  | alone (token : Token) : Concludes [token]
  | other {front : List Token} {last : Token} : last.kind.isMark = true →
      Concludes (front ++ [last])
  | joined {front : List Token} {between last : Token} : Joins between →
      Concludes (front ++ [between, last])

/-- Whatever the tokens stand behind, they end as an expression does. -/
def Extends (tokens : List Token) : Prop :=
  ∀ front, Concludes (front ++ tokens)

section Concludes
variable {between last : Token} {tokens : List Token}

/-- What ends as an expression does, and is joined to what is before it, extends that. -/
theorem Concludes.extends (concludes : Concludes tokens) (joins : Joins between) :
    Extends (between :: tokens) := by
  intro front
  cases concludes with
  | alone last => exact .joined joins
  | @other inner last isMark =>
    rw [← List.cons_append, ← List.append_assoc]
    exact .other isMark
  | @joined inner other last joinsLast =>
    rw [← List.cons_append, ← List.append_assoc]
    exact .joined joinsLast

/-- A name or a literal behind another token is joined by that token to what is before it. -/
theorem Concludes.joins {front : List Token} (concludes : Concludes (front ++ [between, last]))
    (noMark : last.kind.isMark = false) : Joins between := by
  generalize same : front ++ [between, last] = tokens at concludes
  cases concludes with
  | alone token =>
    have length := congrArg List.length same
    simp at length
  | other isMark =>
    rw [List.append_cons] at same
    obtain rfl : last = _ := by simpa using (List.append_inj' same rfl).2
    rw [noMark] at isMark
    cases isMark
  | joined joins =>
    obtain ⟨rfl, rfl⟩ : between = _ ∧ last = _ := by simpa using (List.append_inj' same rfl).2
    exact joins

/-- Only behind an escape word may a name that ends an expression stand behind a value. -/
theorem Concludes.noAlias {front : List Token} (concludes : Concludes (front ++ [between, last]))
    (named : last.kind.readsAsAlias = true)
    (noEscape : Text.sameIgnoringCase between.lexeme "ESCAPE" = true →
      last.kind.readsAsAlias = false) : aliasMayFollow between.kind = false := by
  refine (concludes.joins (TokenKind.isMark_of_readsAsAlias named)).resolve_right fun escapes => ?_
  rw [noEscape escapes] at named
  cases named

theorem Extends.append (ends : Extends tokens) (front : List Token) : Extends (front ++ tokens) := by
  intro before
  rw [← List.append_assoc]
  exact ends _

theorem Extends.of_last (isMark : last.kind.isMark = true) : Extends [last] :=
  fun _ => .other isMark

theorem Joins.of_kind {kind : TokenKind} (is : between.kind = kind)
    (noAlias : aliasMayFollow kind = false) : Joins between := by
  subst is
  exact .inl noAlias

/-- A group ends with a parenthesis. -/
theorem IsGroup.extends (group : IsGroup tokens) (front : List Token) : Extends (front ++ tokens) := by
  rcases List.eq_nil_or_concat tokens with rfl | ⟨inner, closing, rfl⟩
  · exact absurd rfl (Closing.ne_nil group)
  · have isClosing := Closing.getLast group closing (by simp)
    rw [List.concat_eq_append, ← List.append_assoc]
    exact .append (.of_last (by rw [isClosing]; rfl)) _

end Concludes

section Closing
variable {depth : Nat} {token : Token} {tokens : List Token}

/-- What a token makes of the open parentheses is decided by its kind. -/
theorem Turns.unique {answer other : Round Nat Unit} (left : Turns depth token answer)
    (right : Turns depth token other) : answer = other := by
  cases left <;> cases right <;> first | rfl | simp_all

/-- The first token behind open parentheses closes the last of them, or others follow. -/
theorem Closing.turns (closing : Closing depth (token :: tokens)) :
    (Turns depth token (.done ()) ∧ tokens = []) ∨
      ∃ following, Turns depth token (.next following) ∧ Closing following tokens := by
  cases closing with
  | last closing => exact .inl ⟨.last closing, rfl⟩
  | opens opening rest => exact .inr ⟨_, .opens opening, rest⟩
  | closes closing rest => exact .inr ⟨_, .closes closing, rest⟩
  | other noOpening noClosing rest => exact .inr ⟨_, .other noOpening noClosing, rest⟩

/-- Of the tokens behind open parentheses only those up to one token close all of them. -/
theorem Closing.eq_of_append {first second rest others : List Token} (left : Closing depth first)
    (right : Closing depth second) (same : first ++ rest = second ++ others) : first = second := by
  induction first generalizing depth second with
  | nil => exact absurd rfl left.ne_nil
  | cons token first ih =>
    obtain ⟨other, second, rfl⟩ := List.exists_cons_of_ne_nil right.ne_nil
    rw [List.cons_append, List.cons_append, List.cons.injEq] at same
    obtain ⟨rfl, same⟩ := same
    rcases left.turns with ⟨ends, rfl⟩ | ⟨following, goes, more⟩ <;>
      rcases right.turns with ⟨ended, rfl⟩ | ⟨_, went, others⟩
    · rfl
    · cases ends.unique went
    · cases goes.unique ended
    · cases goes.unique went
      rw [ih more others same]

end Closing

section Outside
variable {depth : Nat} {other : Token} {first second : List Token}

/-- What stands outside of parentheses in a list stands in its front or outside behind that. -/
theorem exists_mem_outside (member : other ∈ outside depth (first ++ second)) :
    other ∈ first ∨ ∃ following, other ∈ outside following second := by
  induction first generalizing depth with
  | nil => exact .inr ⟨depth, member⟩
  | cons token first ih =>
    obtain rfl | ⟨following, later⟩ : other = token ∨
        ∃ following, other ∈ outside following (first ++ second) := by
      cases depth with
      | zero => exact (List.mem_cons.mp member).imp id fun later => ⟨_, later⟩
      | succ depth => exact .inr ⟨_, member⟩
    · exact .inl List.mem_cons_self
    · exact (ih later).imp (List.mem_cons_of_mem _) id

/-- Of the tokens up to the one that closes the parentheses only an opening one may stand outside. -/
theorem Closing.mem_outside {outer : Nat} (closing : Closing depth first)
    (member : other ∈ Token.outside (depth + outer) (first ++ second)) :
    other.kind = .symbol .leftParen ∨ other ∈ Token.outside outer second := by
  induction closing with
  | last closing =>
    rw [Nat.add_comm] at member
    rcases (mem_outside_cons (deepen?_of_closing closing)).mp member with ⟨outside, _⟩ | later
    · cases outside
    · exact .inr later
  | opens opening _ ih =>
    rcases (mem_outside_cons (deepen?_of_opening opening)).mp member with ⟨_, rfl⟩ | later
    · exact .inl opening
    · rw [Nat.add_right_comm] at later
      exact ih later
  | @closes depth _ _ closing _ ih =>
    rw [Nat.add_right_comm depth 2 outer] at member
    rcases (mem_outside_cons (deepen?_of_closing closing)).mp member with ⟨outside, _⟩ | later
    · cases outside
    · rw [Nat.add_right_comm] at ih
      exact ih later
  | @other depth _ _ noOpening noClosing _ ih =>
    rcases (mem_outside_cons (deepen?_of_other noOpening noClosing)).mp member with
      ⟨outside, _⟩ | later
    · omega
    · exact ih later

/-- Tokens that close the open parentheses close those that are open behind their front. -/
theorem Level.behind {following : Nat} (level : Level depth (first ++ second))
    (stands : Token.depthBehind? depth first = some following) : Level following second := by
  induction first generalizing depth with
  | nil =>
    obtain rfl := Option.some.inj stands
    exact level
  | cons token first ih =>
    cases level with
    | opens opening rest =>
      exact ih rest (by rwa [depthBehind?_cons (deepen?_of_opening opening)] at stands)
    | closes closing rest =>
      exact ih rest (by rwa [depthBehind?_cons (deepen?_of_closing closing)] at stands)
    | other noOpening noClosing _ rest =>
      exact ih rest (by rwa [depthBehind?_cons (deepen?_of_other noOpening noClosing)] at stands)

end Outside

end Token

namespace Phrase
open Token

theorem Fits.concludes {phrase : Phrase} {rest : List Token} (fits : phrase.Fits rest) :
    Concludes phrase.tokens := by
  cases phrase with
  | mark token => exact .alone token
  | word token => exact .alone token
  | «variable» marks written =>
    obtain ⟨some, are, _⟩ := fits
    obtain ⟨front, sign, rfl⟩ := (List.eq_nil_or_concat marks).resolve_left some
    have joins : Joins sign := by
      rcases are sign (by simp) with is | is <;> exact .of_kind is rfl
    simpa [tokens] using (Concludes.alone written).extends joins front
  | name owners last =>
    rcases List.eq_nil_or_concat owners with rfl | ⟨front, ⟨owner, point⟩, rfl⟩
    · exact .alone last
    · have joins : Joins point := .of_kind (fits.1 (owner, point) (by simp)).2 rfl
      simpa [tokens, joined] using (Concludes.alone last).extends joins (joined front ++ [owner])
  | columns owners star =>
    have isMark : star.kind.isMark = true := by
      rw [fits.2.2.2]
      rfl
    exact .other isMark
  | call function arguments => exact fits.2.extends [function] []
  | cast sign type arguments =>
    obtain ⟨is, _, ⟨rfl, _⟩ | group⟩ := fits
    · exact (Concludes.alone type).extends (.of_kind is rfl) []
    · exact group.extends [sign, type] []

/-- A cast extends its operand. -/
theorem Fits.extends_cast {sign type : Token} {arguments rest : List Token}
    (fits : (Phrase.cast sign type arguments).Fits rest) :
    Extends (Phrase.cast sign type arguments).tokens := by
  obtain ⟨is, _, ⟨rfl, _⟩ | group⟩ := fits
  · exact (Concludes.alone type).extends (.of_kind is rfl)
  · exact group.extends [sign, type]

theorem noSemicolon_of_isWritten {token : Token} (written : token.kind.isWritten = true) :
    token.kind ≠ .symbol .semicolon := by
  intro is
  simp [is, TokenKind.isWritten, TokenKind.isSymbol] at written

theorem Dotted.noSemicolon {owners : List (Token × Token)} (dotted : Dotted owners) :
    ∀ token ∈ joined owners, token.kind ≠ .symbol .semicolon := by
  intro token member
  obtain ⟨part, among, member⟩ := List.mem_flatMap.mp member
  obtain ⟨written, is⟩ := dotted part among
  rcases (by simpa using member : token = part.1 ∨ token = part.2) with rfl | rfl
  · exact noSemicolon_of_isWritten written
  · simp [is]

/-- No semicolon stands outside of the parentheses of an expression. -/
theorem noSemicolon_of_fit {phrases : List Phrase} {rest : List Token} (fit : Fit phrases rest)
    (lexed : AreLexed (text phrases)) (depth : Nat) :
    ∀ token ∈ outside depth (text phrases), token.kind ≠ .symbol .semicolon := by
  induction phrases generalizing depth with
  | nil => simp
  | cons phrase phrases ih =>
    obtain ⟨fits, fit⟩ := fit
    rw [text_cons] at lexed ⊢
    have later := ih fit lexed.right
    have front {first second : List Token} {depth : Nat}
        (none : ∀ token ∈ first, token.kind ≠ .symbol .semicolon)
        (behind : ∀ depth, ∀ token ∈ outside depth second, token.kind ≠ .symbol .semicolon) :
        ∀ token ∈ outside depth (first ++ second), token.kind ≠ .symbol .semicolon := by
      intro token member
      rcases exists_mem_outside member with inFront | ⟨following, member⟩
      · exact none token inFront
      · exact behind following token member
    have grouped {group : List Token} (isGroup : IsGroup group) (depth : Nat) :
        ∀ token ∈ outside depth (group ++ text phrases), token.kind ≠ .symbol .semicolon := by
      intro token member
      rw [← Nat.zero_add depth] at member
      rcases Closing.mem_outside isGroup member with opening | member
      · simp [opening]
      · exact later depth token member
    cases phrase with
    | mark token =>
      refine front (fun other member => ?_) later
      rw [List.mem_singleton.mp member]
      intro is
      simp [Fits, Expr.isSyntax, is] at fits
    | word token =>
      refine front (fun other member => ?_) later
      have written := (lexed.left token (by simp [tokens])).isWritten_of_word fits (by decide)
      rw [List.mem_singleton.mp member]
      exact noSemicolon_of_isWritten written
    | «variable» marks written =>
      obtain ⟨_, are, isWritten⟩ := fits
      refine front (fun other member => ?_) later
      rcases List.mem_append.mp member with member | member
      · rcases are other member with is | is <;> simp [is]
      · rw [List.mem_singleton.mp member]
        exact noSemicolon_of_isWritten isWritten
    | name owners last =>
      refine front (fun other member => ?_) later
      rcases List.mem_append.mp member with member | member
      · exact fits.1.noSemicolon other member
      · rw [List.mem_singleton.mp member]
        exact noSemicolon_of_isWritten fits.2.1
    | columns owners star =>
      refine front (fun other member => ?_) later
      rcases List.mem_append.mp member with member | member
      · exact fits.2.1.noSemicolon other member
      · rw [List.mem_singleton.mp member]
        simp [fits.2.2.2]
    | call function arguments =>
      refine @front [function] (arguments ++ text phrases) depth (fun other member => ?_)
        (grouped fits.2)
      rw [List.mem_singleton.mp member]
      intro is
      simp [Fits, Expr.startsCall, is] at fits
    | cast sign type arguments =>
      obtain ⟨is, isWritten, arguments⟩ := fits
      refine @front [sign, type] (_ ++ text phrases) depth (fun other member => ?_) ?_
      · rcases (by simpa using member : other = sign ∨ other = type) with rfl | rfl
        · simp [is]
        · exact noSemicolon_of_isWritten isWritten
      · rcases arguments with ⟨rfl, _⟩ | group
        · exact later
        · exact grouped group

end Phrase

namespace Expr
open AnalysisStep

theorem noAlias_of_unaryPower {kind : TokenKind} {power : Nat} (binds : unaryPower? kind = some power) :
    aliasMayFollow kind = false := by
  unfold unaryPower? at binds
  split at binds <;> first | rfl | cases binds

theorem noAlias_of_binaryPower {kind : TokenKind} {power : Nat}
    (binds : binaryPower? kind = some power) : aliasMayFollow kind = false := by
  unfold binaryPower? at binds
  split at binds <;> first | rfl | cases binds

end Expr

namespace ExprStep
open Scan Step Cursor ExprState

/-- The reader passes tokens that end as an expression does. -/
def Concluding (reader : Nat → ExprStep Expr) : Prop :=
  ∀ {power : Nat} {before after : ExprState} {expr : Expr} {tokens : List Token},
    Yields (reader power) before expr after → Moves before.cursor tokens after.cursor →
      Token.Concludes tokens

section Nested
variable {nested : Nat → ExprStep Expr} (sound : ReadsPhrases nested) (concluding : Concluding nested)
  {before after : ExprState} {power : Nat} {expr : Expr} {tokens : List Token}
include sound concluding

omit concluding in
theorem primary_concludes (answers : Yields (primary nested) before expr after)
    (moves : Moves before.cursor tokens after.cursor) : Token.Concludes tokens := by
  rcases @primary_cases _ _ _ sound 0 _ answers with
    ⟨phrase, reads⟩ | ⟨opening, inner, closing, isClosing, reads, _⟩
  · obtain rfl := moves.tokens_eq reads.moves
    simpa using reads.fit.1.concludes
  · obtain rfl := moves.tokens_eq reads.moves
    have isMark : closing.kind.isMark = true := by
      rcases isClosing with is | is <;> rw [is] <;> rfl
    simpa [Phrase.tokens] using
      @Token.Concludes.other (opening :: Phrase.text inner) closing isMark

theorem operand_concludes (answers : Yields (operand nested) before expr after)
    (moves : Moves before.cursor tokens after.cursor) : Token.Concludes tokens := by
  unfold operand at answers
  rw [Step.yields_look_bind, Step.yields_look_bind] at answers
  split at answers
  · next binding binds =>
    rw [Step.yields_advance_bind] at answers
    obtain ⟨_, _, ran, spanned⟩ := yields_bind.mp answers
    obtain ⟨rfl, rfl⟩ := yields_spanningFrom.mp spanned
    obtain ⟨phrases, reads⟩ := sound ran
    obtain ⟨syntactic, plain⟩ := Expr.unaryPower_spec binds
    obtain ⟨sign, is, _, first⟩ := reads_advance syntactic plain
    obtain rfl := moves.tokens_eq (first.moves.trans reads.moves)
    exact (concluding ran reads.moves).extends (.of_kind is (Expr.noAlias_of_unaryPower binds)) []
  · exact primary_concludes sound answers moves

/-- An operator extends its left operand up to the end of its right one. -/
theorem operation_extends {answer : Unit}
    (operator : (Expr.binaryPower? before.cursor.kind).isSome = true)
    (bound : atLoneNot before.cursor = false)
    (answers : Yields (operation nested power) before answer after) :
    ∃ tokens, Moves before.cursor tokens after.cursor ∧ Token.Extends tokens := by
  unfold operation at answers
  obtain ⟨negated, between, skipped, rest⟩ := yields_bind.mp answers
  rw [Step.yields_look_bind] at rest
  obtain ⟨one, first, binding, binds⟩ := negation_reads operator bound skipped
  obtain ⟨syntactic, plain⟩ := Expr.binaryPower_spec binds
  obtain ⟨sign, is, _, second⟩ := reads_advance syntactic plain
  have upTo := first.moves.trans second.moves
  -- the operator, or a word behind it, joins the last operand
  have joined {right : ExprState} {expr : Expr} {power : Nat} {front : List Token} {word : Token}
      {middle : ExprState} (passed : Moves before.cursor (front ++ [word]) middle.cursor)
      (joins : word.Joins) (asked : Yields (nested power) middle expr right) :
      ∃ tokens, Moves before.cursor tokens right.cursor ∧ Token.Extends tokens := by
    obtain ⟨phrases, reads⟩ := sound asked
    refine ⟨_, passed.trans reads.moves, ?_⟩
    rw [List.append_assoc]
    exact ((concluding asked reads.moves).extends joins).append front
  have signJoins : sign.Joins := .of_kind is (Expr.noAlias_of_binaryPower binds)
  split at rest
  · rw [Step.yields_advance_bind] at rest
    obtain ⟨_, middle, skipped, rest⟩ := yields_bind.mp rest
    obtain ⟨found, last, tested, rest⟩ := yields_bind.mp rest
    obtain ⟨two, third⟩ : ∃ phrases, ReadsBalanced _ phrases middle := by
      rcases skipKeyword_reads skipped (by decide) with ⟨_, word, _, passed⟩ | ⟨_, _, rfl⟩
      · exact ⟨_, passed⟩
      · exact ⟨[], .refl _⟩
    rcases skipAnyKeyword_reads tested (by decide) with
      ⟨rfl, _, _, word, is, passed⟩ | ⟨rfl, _, rfl⟩
    · obtain ⟨_, rfl⟩ := yields_pure.mp rest
      exact ⟨_, (upTo.trans third.moves).trans passed.moves,
        .append (.of_last (by rw [is]; rfl)) _⟩
    · exact absurd rest Step.not_yields_fail
  · rw [Step.yields_advance_bind, Step.yields_look_bind] at rest
    simp only [yields_ite, not_yields_fail_bind, and_false, or_false] at rest
    obtain ⟨opening, inner, closing, isClosing, reads⟩ := parenthesized_reads sound rest.2
    refine ⟨_, upTo.trans reads.moves, .append ?_ _⟩
    rw [← List.cons_append, Phrase.text_append]
    exact .append (.of_last (by rw [isClosing]; rfl)) _
  · rw [Step.yields_advance_bind] at rest
    obtain ⟨_, _, lower, rest⟩ := yields_bind.mp rest
    obtain ⟨_, _, expected, rest⟩ := yields_bind.mp rest
    obtain ⟨_, _, upper, rest⟩ := yields_bind.mp rest
    obtain ⟨_, rfl⟩ := yields_pure.mp rest
    obtain ⟨two, third⟩ := sound lower
    obtain ⟨word, is, fourth⟩ := expectKeyword_reads expected (by decide)
    exact joined ((upTo.trans third.moves).trans fourth.moves) (.of_kind is rfl) upper
  · rw [Step.yields_advance_bind] at rest
    obtain ⟨_, middle, pattern, rest⟩ := yields_bind.mp rest
    rw [Step.yields_look_bind] at rest
    rcases yields_ite.mp rest with ⟨escapes, rest⟩ | ⟨_, rest⟩
    · rw [Step.yields_advance_bind] at rest
      obtain ⟨_, _, escape, rest⟩ := yields_bind.mp rest
      obtain ⟨_, rfl⟩ := yields_pure.mp rest
      obtain ⟨two, third⟩ := sound pattern
      obtain ⟨word, fourth⟩ := word_reads escapes
      exact joined ((upTo.trans third.moves).trans fourth.moves) (.inr fourth.fit.1) escape
    · obtain ⟨_, rfl⟩ := yields_pure.mp rest
      exact joined upTo signJoins pattern
  · rw [Step.yields_advance_bind] at rest
    obtain ⟨_, _, right, rest⟩ := yields_bind.mp rest
    obtain ⟨_, rfl⟩ := yields_pure.mp rest
    exact joined upTo signJoins right

/-- One more operator extends the expression. -/
theorem expressionRound_extends {start : Nat} {left following : Expr}
    (answers : Yields (expressionRound nested power start left) before (.next following) after) :
    ∃ tokens, Moves before.cursor tokens after.cursor ∧ Token.Extends tokens := by
  unfold expressionRound at answers
  rw [Step.yields_look_bind] at answers
  simp only [id_eq, cursor_expr] at answers
  split at answers
  · next _ binding casts =>
    rcases yields_ite.mp answers with ⟨_, ended⟩ | ⟨_, more⟩
    · cases (yields_pure.mp ended).1
    · obtain ⟨_, _, ran, rest⟩ := yields_bind.mp more
      simp only [yields_bind, yields_spanningFrom, yields_pure] at rest
      obtain ⟨_, _, ⟨rfl, rfl⟩, _, rfl⟩ := rest
      obtain ⟨sign, type, arguments, reads, _, _⟩ := cast_reads ran
      exact ⟨_, by simpa using reads.moves, reads.fit.1.extends_cast⟩
  · next binding _ binds =>
    rcases yields_ite.mp answers with ⟨_, ended⟩ | ⟨goes, more⟩
    · cases (yields_pure.mp ended).1
    · obtain ⟨_, _, ran, rest⟩ := yields_bind.mp more
      simp only [yields_bind, yields_spanningFrom, yields_pure] at rest
      obtain ⟨_, _, ⟨rfl, rfl⟩, _, rfl⟩ := rest
      rw [Bool.or_eq_true, decide_eq_true_eq, not_or, Bool.not_eq_true] at goes
      exact operation_extends sound concluding (by simp [binds]) goes.2 ran
  · cases (yields_pure.mp answers).1

/-- The operators behind an operand extend it. -/
theorem operators_conclude {start : Nat} {left : Expr} {front : List Token}
    (ran : Rounds (expressionRound nested power start) left before expr after)
    (concludes : Token.Concludes front) :
    ∃ tokens, Moves before.cursor tokens after.cursor ∧ Token.Concludes (front ++ tokens) := by
  induction ran generalizing front with
  | done answers =>
    rcases expressionRound_cases sound answers with ⟨_, rfl⟩ | ⟨_, _, _, _, next⟩
    · exact ⟨[], .refl _, by rwa [List.append_nil]⟩
    · cases next
  | next answers _ ih =>
    obtain ⟨tokens, moves, longer⟩ := expressionRound_extends sound concluding answers
    obtain ⟨others, more, ended⟩ := ih (longer front)
    rw [List.append_assoc] at ended
    exact ⟨tokens ++ others, moves.trans more, ended⟩

/-- What is read as an expression ends as one does. -/
theorem expressionWith_concludes : Concluding (expressionWith nested) := by
  intro power before after expr tokens answers moves
  unfold expressionWith at answers
  rw [Step.yields_look_bind] at answers
  obtain ⟨first, between, operand, rest⟩ := yields_bind.mp answers
  obtain ⟨phrases, _, (reads : ReadsAs power before phrases first between)⟩ :=
    operand_reads sound operand
  obtain ⟨others, more, concludes⟩ := operators_conclude sound concluding (rounds_of_rounding rest)
    (operand_concludes sound concluding operand reads.moves)
  rwa [moves.tokens_eq (reads.moves.trans more)]

end Nested

theorem expressionWithin_concludes (depth : Nat) : Concluding (expressionWithin depth) := by
  induction depth with
  | zero => exact fun answers => absurd answers Step.not_yields_fail
  | succ depth ih => exact expressionWith_concludes (reads_expressionWithin depth) ih

/-- An expression is read by the reader of expressions at some depth. -/
theorem exists_expressionWith {before after : ExprState} {power : Nat} {expr : Expr}
    (answers : Yields (expressionOf power) before expr after) :
    ∃ depth, Yields (expressionWith (expressionWithin depth) power) before expr after := by
  unfold expressionOf at answers
  rw [Step.yields_look_bind] at answers
  exact ⟨_, answers⟩

/-- An expression ends as one does, however deep others are nested in it. -/
theorem expressionOf_concludes : Concluding expressionOf := by
  intro power before after expr tokens answers
  obtain ⟨depth, answers⟩ := exists_expressionWith answers
  exact expressionWith_concludes (reads_expressionWithin depth) (expressionWithin_concludes depth)
    answers

section Begins
open AnalysisStep
variable {nested : Nat → ExprStep Expr} {before after : ExprState} {power : Nat} {expr : Expr}

theorem startsItem_of_word {word : Keyword}
    (begins : (isFunctionName word || isColumnName word) = true) :
    startsItem (.keyword word) = true := by
  cases word <;> first | rfl | cases begins

/-- An operand begins with a token with which an item of the projection list can begin. -/
theorem primary_begins (answers : Yields (primary nested) before expr after) :
    startsItem before.cursor.kind = true ∧ before.cursor.kind ≠ .symbol .star := by
  unfold primary at answers
  rw [Step.yields_look_bind] at answers
  simp only [id_eq, cursor_expr] at answers
  rw [show before.cursor.current.kind = before.cursor.kind from rfl] at answers
  split at answers
  case h_16 => exact absurd answers Step.not_yields_fail
  case h_15 word named =>
    rw [named]
    refine ⟨startsItem_of_word ?_, nofun⟩
    rcases yields_ite.mp answers with ⟨called, _⟩ | ⟨_, answers⟩
    · rw [(Bool.and_eq_true_iff.mp called).1, Bool.true_or]
    · rcases yields_ite.mp answers with ⟨column, _⟩ | ⟨_, failed⟩
      · rw [column, Bool.or_true]
      · exact absurd failed Step.not_yields_fail
  all_goals
    next named =>
      rw [named]
      exact ⟨rfl, nofun⟩

theorem operand_begins (answers : Yields (operand nested) before expr after) :
    startsItem before.cursor.kind = true ∧ before.cursor.kind ≠ .symbol .star := by
  unfold operand at answers
  rw [Step.yields_look_bind, Step.yields_look_bind] at answers
  split at answers
  · next binding binds =>
    rw [cursor_expr] at binds
    unfold Expr.unaryPower? at binds
    split at binds
    case h_5 => cases binds
    all_goals
      next named =>
        rw [named]
        exact ⟨rfl, nofun⟩
  · exact primary_begins answers

end Begins

end ExprStep

end SelectRouting
