import SelectRouting.Proofs.ExpressionEnds
import SelectRouting.Proofs.PlainItems
import SelectRouting.Proofs.StatementKept

/-!
# Expressions in the projection list

The projection list does not read its expressions, and yet it agrees with the reader of expressions:
tokens which that reader accepts as a whole are one item, whose expression they are
(`AnalysisStep.expression_projected`). Where the list takes tokens for something else than a part of
an expression, this is left out (`Projected.IsExpression`).
-/

namespace SelectRouting

/-- The projection list takes no token of an expression for something else. The expression is `call`,
the call of an aggregate function that begins it, if there is one, and `text`, which is passed token
by token. -/
structure Projected.IsExpression (dialect : Dialect) (call text : List Token) : Prop where
  begins : IsCall call ∨ (call = [] ∧ ∀ first rest, text = first ++ rest → ¬ IsCall first)
  /-- A call alone is an item of its own. -/
  some : text ≠ []
  /-- A star in quotes at the front is the item of all columns. -/
  noStar : ∀ first ∈ (call ++ text).head?, Text.stripQuotes first.lexeme ≠ "*"
  /-- A dialect may have a word that is passed before the item. -/
  noWord : ∀ word, dialect.itemWord = Option.some word → ∀ first ∈ (call ++ text).head?,
    Text.sameIgnoringCase first.lexeme word = false
  /-- Reserved words end the item outside of parentheses, and subqueries are rejected. -/
  guarded : GuardedText 0 text
  noExists : ∀ token ∈ text, token.kind ≠ .keyword .EXISTS
  /-- A name or a string that is the escape character of a pattern at the end reads as an alias. -/
  noEscape : ∀ front escape last, call ++ text = front ++ [escape, last] →
    Text.sameIgnoringCase escape.lexeme "ESCAPE" = true → last.kind.readsAsAlias = false

namespace AnalysisStep
open Scan Step Cursor Analysis

section Expression
variable {before : ExprState} {after : ExprState} {power : Nat} {expr : Expr}
  {dialect : Dialect} {call text : List Token}

/-- Where a call of an aggregate function begins, the operand is the call. -/
theorem operand_of_call {nested : Nat → ExprStep Expr} {function : AggregateFunction}
    (found : aggregateAt? before.cursor = some function)
    (answers : Yields (ExprStep.operand nested) before expr after) :
    ∃ call, Projected.IsCall call ∧ Moves before.cursor call after.cursor := by
  obtain ⟨word, is, isFunction, opens⟩ := aggregateAt?_some found
  have behind : (before.cursor.peek 1).kind = .symbol .leftParen := by
    cases next : (before.cursor.peek 1).kind <;> simp_all [TokenKind.sameShape]
  have named : ExprStep.isFunctionName word = true := by
    cases word <;> first | rfl | cases isFunction
  have called : Yields (do
      Scan.advance
      ExprStep.arguments
      ExprStep.spanningFrom before.cursor.start : ExprStep Expr) before expr after := by
    have noSign : Expr.unaryPower? before.cursor.kind = none := by
      rw [is]
      cases word <;> first | rfl | cases isFunction
    unfold ExprStep.operand at answers
    rw [Step.yields_look_bind, Step.yields_look_bind] at answers
    simp only [ExprStep.cursor_expr, noSign] at answers
    unfold ExprStep.primary at answers
    rw [Step.yields_look_bind] at answers
    simp only [id_eq, ExprStep.cursor_expr] at answers
    rw [show before.cursor.current.kind = _ from is] at answers
    have unfolded : Yields (if ExprStep.isFunctionName word &&
        (before.cursor.peek 1).kind == .symbol .leftParen then do
          Scan.advance
          ExprStep.arguments
          ExprStep.spanningFrom before.cursor.start
        else if ExprStep.isColumnName word then ExprStep.name
        else Scan.fail .expression : ExprStep Expr) before expr after := by
      cases word <;> first | exact answers | cases isFunction
    rwa [named, behind, if_pos (by rfl)] at unfolded
  obtain ⟨token, arguments, isWord, reads⟩ :=
    @ExprStep.call_reads before after 0 expr word is named behind called
  exact ⟨token :: arguments, ⟨token, arguments, word, rfl, isWord, by simp [isFunction],
    reads.fit.1.2⟩, by simpa [Phrase.tokens] using reads.moves⟩

/-- A call of an aggregate function at the front of an expression is all of it, or an operator stands
behind the call. -/
theorem call_of_expression {function : AggregateFunction}
    (found : aggregateAt? before.cursor = some function)
    (answers : Yields (ExprStep.expressionOf power) before expr after) :
    ∃ call text, Projected.IsCall call ∧ Moves before.cursor (call ++ text) after.cursor ∧
      (text = [] ∨ Expr.Holds power (Token.frontKind text)) := by
  obtain ⟨depth, answers⟩ := ExprStep.exists_expressionWith answers
  have sound : ExprStep.ReadsPhrases (ExprStep.expressionWithin depth) :=
    ExprStep.reads_expressionWithin depth
  unfold ExprStep.expressionWith at answers
  rw [Step.yields_look_bind] at answers
  obtain ⟨first, between, operand, rest⟩ := yields_bind.mp answers
  obtain ⟨call, isCall, moves⟩ := operand_of_call found operand
  obtain ⟨phrases, more, shape⟩ := ExprStep.operators_read sound (rounds_of_rounding rest)
  refine ⟨call, _, isCall, moves.trans more.moves, ?_⟩
  rcases shape with ⟨rfl, _⟩ | ⟨some, holds, _⟩
  · exact .inl rfl
  · rw [more.moves.frontKind (Phrase.text_ne_nil some)]
    exact .inr holds

end Expression

end AnalysisStep

namespace ExprStep
open Scan Step Cursor AnalysisStep

/-- The reader of expressions accepts all of the tokens where nothing stands behind them. -/
def Accepts (cursor : Cursor) (tokens : List Token) : Prop :=
  ∃ expr after, Yields expression { cursor := { cursor with rest := tokens } } expr after ∧
    after.cursor.rest = []

theorem accepts_iff {cursor : Cursor} {tokens : List Token} : Accepts cursor tokens ↔
    (match expression { cursor := { cursor with rest := tokens } } with
      | (.ok _, after) => after.cursor.rest.isEmpty
      | (.error _, _) => false) = true := by
  constructor
  · rintro ⟨expr, after, answers, ended⟩
    rw [show expression _ = _ from answers]
    exact List.isEmpty_iff.mpr ended
  · intro accepted
    split at accepted
    · next expr after answers => exact ⟨expr, after, answers, List.isEmpty_iff.mp accepted⟩
    · cases accepted

instance (cursor : Cursor) (tokens : List Token) : Decidable (Accepts cursor tokens) :=
  decidable_of_iff _ accepts_iff.symm

namespace Accepts
variable {cursor : Cursor} {tokens : List Token} (accepts : Accepts cursor tokens)
include accepts

/-- The tokens are those of the phrases that are read. -/
theorem exists_reads : ∃ phrases expr after,
    Yields expression { cursor := { cursor with rest := tokens } } expr after ∧
      ExprState.ReadsAs 0 { cursor := { cursor with rest := tokens } } phrases expr after ∧
      Phrase.text phrases = tokens := by
  obtain ⟨expr, after, answers, ended⟩ := accepts
  obtain ⟨phrases, reads⟩ := reads_expressionOf answers
  refine ⟨phrases, expr, after, answers, reads, ?_⟩
  have rest := reads.moves.rest
  rw [ended, List.append_nil] at rest
  exact rest.symm

theorem balanced (lexed : Token.AreLexed tokens) : Token.Balanced tokens := by
  obtain ⟨phrases, _, _, _, reads, rfl⟩ := accepts.exists_reads
  exact reads.balanced lexed

theorem noSemicolon (lexed : Token.AreLexed tokens) (depth : Nat) :
    ∀ token ∈ Token.outside depth tokens, token.kind ≠ .symbol .semicolon := by
  obtain ⟨phrases, _, _, _, reads, rfl⟩ := accepts.exists_reads
  exact Phrase.noSemicolon_of_fit reads.fit lexed depth

theorem concludes : Token.Concludes tokens := by
  obtain ⟨phrases, _, _, answers, reads, rfl⟩ := accepts.exists_reads
  exact expressionOf_concludes answers reads.moves

theorem begins : startsItem (Token.frontKind tokens) = true ∧
    Token.frontKind tokens ≠ .symbol .star := by
  obtain ⟨expr, after, answers, _⟩ := accepts
  obtain ⟨depth, answers⟩ := exists_expressionWith answers
  unfold expressionWith at answers
  rw [Step.yields_look_bind] at answers
  obtain ⟨_, _, operand, _⟩ := yields_bind.mp answers
  have begins := operand_begins operand
  rwa [kind_eq_frontKind] at begins

/-- Where the call of an aggregate function begins the tokens, an operator stands behind it, if
anything does. -/
theorem exists_call {function : AggregateFunction}
    (opens : (Token.frontKind tokens.tail).sameShape (.symbol .leftParen) = true)
    (calls : (Token.frontKind tokens).keyword?.bind AggregateFunction.ofKeyword? = some function) :
    ∃ call text, Projected.IsCall call ∧ tokens = call ++ text ∧
      (text = [] ∨ Expr.Holds 0 (Token.frontKind text)) := by
  obtain ⟨phrases, _, _, answers, reads, same⟩ := accepts.exists_reads
  have found : aggregateAt? { cursor with rest := tokens } = some function := by
    rw [aggregateAt?, kind_peek_one, kind_eq_frontKind, if_pos opens, calls]
  obtain ⟨call, text, isCall, moves, behind⟩ := call_of_expression found answers
  exact ⟨call, text, isCall, same.symm.trans (reads.moves.tokens_eq moves), behind⟩

end Accepts

end ExprStep

namespace AnalysisStep
open Scan Step Cursor Analysis

section Item
variable {before : Analysis} {dialect : Dialect} {call text named : List Token} {position : Nat}

theorem isNested_of_begins (expression : Projected.IsExpression dialect call text) :
    Token.IsNested call := by
  rcases expression.begins with ⟨function, group, word, rfl, is, _, isGroup⟩ | ⟨rfl, _⟩
  · exact (Token.Balanced.word (by simp [is, TokenKind.isWritten, TokenKind.isSymbol])
      (.of_group isGroup)).isNested
  · exact .nil

/-- The item goes on with all tokens of an expression behind the call at its front. -/
theorem goesOn_of_accepts (expression : Projected.IsExpression dialect call text)
    (accepts : ExprStep.Accepts before.cursor (call ++ text))
    (lexed : Token.AreLexed (call ++ text)) : GoesOn 0 text where
  level := (accepts.balanced lexed).behind (isNested_of_begins expression)
  guarded := expression.guarded
  noSemicolon token member := accepts.noSemicolon lexed 0 token
    ((Token.mem_outside_append (isNested_of_begins expression)).mpr (.inr member))
  noExists := expression.noExists
  inside token member := (lexed.right token member).kind_ne_endOfInput

/-- A name that ends an expression does not read as its alias. -/
theorem joined_of_accepts (expression : Projected.IsExpression dialect call text)
    (accepts : ExprStep.Accepts before.cursor (call ++ text)) {afterValue : Bool}
    (value : call = [] → afterValue = false) :
    ∀ front last, text = front ++ [last] → last.kind.readsAsAlias = true →
      (front.getLast?.map fun token => aliasMayFollow token.kind).getD afterValue = false := by
  intro front last is named
  have concludes := accepts.concludes
  have noAlias {tokens : List Token} {between : Token}
      (same : call ++ text = tokens ++ [between, last]) : aliasMayFollow between.kind = false := by
    rw [same] at concludes
    exact concludes.noAlias named fun escapes => expression.noEscape tokens between last same escapes
  rcases List.eq_nil_or_concat front with rfl | ⟨front, between, rfl⟩
  · refine value ?_
    rcases expression.begins with ⟨function, group, word, rfl, _, _, isGroup⟩ | ⟨none, _⟩
    · obtain ⟨inner, closing, rfl⟩ :=
        (List.eq_nil_or_concat group).resolve_left (Token.Closing.ne_nil isGroup)
      have isClosing := Token.Closing.getLast isGroup closing (by simp)
      have none := @noAlias (function :: inner) closing (by simp [is])
      rw [isClosing] at none
      cases none
    · exact none
  · rw [List.concat_eq_append, List.getLast?_concat]
    exact @noAlias (call ++ front) between (by simp [is])

/-- Where tokens follow one another in their text, the last one ends behind the start of the first. -/
theorem start_lt_stopOf {start stop : Nat} (some : text ≠ [])
    (begins : ∀ token ∈ (call ++ text).head?, token.start = start)
    (ordered : (call ++ text).Pairwise fun first second => first.start < second.start)
    (lexed : Token.AreLexed (call ++ text)) : start < Token.stopOf stop text := by
  obtain ⟨inner, last, rfl⟩ := (List.eq_nil_or_concat text).resolve_left some
  rw [List.concat_eq_append, ← List.append_assoc] at begins ordered lexed
  rw [List.concat_eq_append, Token.stopOf, List.getLast?_concat]
  refine Nat.lt_of_le_of_lt ?_ (lexed last (by simp)).start_lt_stop
  generalize call ++ inner = front at begins ordered
  cases front with
  | nil => exact Nat.le_of_eq (begins last rfl).symm
  | cons first front =>
    rw [← begins first rfl]
    exact Nat.le_of_lt ((List.pairwise_append.mp ordered).2.2 first List.mem_cons_self last
      List.mem_cons_self)

theorem atItemEnd_of_holds {cursor : Cursor} {power : Nat} (holds : Expr.Holds power cursor.kind) :
    atItemEnd cursor = false := by
  unfold atItemEnd atTerminator
  generalize cursor.kind = kind at holds
  rcases holds with ⟨binding, casts, _⟩ | ⟨binding, binds, _⟩
  · unfold Expr.castPower? at casts
    split at casts <;> first | rfl | cases casts
  · unfold Expr.binaryPower? at binds
    split at binds <;> first | rfl | cases binds

/-- The word that a dialect passes before an item does not matter where it does not stand. -/
theorem yields_item_of_noWord {answer : Item} {after : Analysis}
    (noWord : ∀ word, dialect.itemWord = some word → before.cursor.atWord? word = false) :
    Yields (item dialect position) before answer after ↔
      Yields (item { dialect with itemWord := none } position) before answer after := by
  cases found : dialect.itemWord with
  | none => rw [item, item, found]
  | some word =>
    unfold item
    rw [found]
    dsimp only
    rw [yields_bind]
    constructor
    · rintro ⟨_, between, skipped, rest⟩
      obtain ⟨cursor, scanned, rfl⟩ := yields_scan.mp skipped
      rcases yields_skipWhen.mp scanned with ⟨stands, _⟩ | ⟨_, _, rfl⟩
      · rw [noWord word found] at stands
        cases stands
      · exact rest
    · intro rest
      exact ⟨false, before, yields_scan.mpr ⟨before.cursor,
        yields_skipWhen.mpr (.inr ⟨noWord word found, rfl, rfl⟩), rfl⟩, rest⟩

/-- A call of an aggregate function begins where its tokens stand. -/
theorem aggregateAt?_of_call {function : Token} {group rest : List Token} {word : Keyword}
    (stands : before.cursor.rest = function :: group ++ rest) (is : function.kind = .keyword word)
    (isGroup : Token.IsGroup group) :
    aggregateAt? before.cursor = AggregateFunction.ofKeyword? word := by
  rw [aggregateAt?, kind_peek_one, kind_eq_frontKind, stands, List.cons_append, List.tail_cons,
    Token.frontKind_append (Token.Closing.ne_nil isGroup), isGroup.frontKind, Token.frontKind_cons, is]
  rfl

/-- Behind the call at the front of an expression an operator stands, so the item does not end. -/
theorem goes_behind_call (expression : Projected.IsExpression dialect call text)
    (accepts : ExprStep.Accepts before.cursor (call ++ text)) (isCall : Projected.IsCall call)
    {behind middle : Cursor} (passes : Passes behind text middle) : atItemEnd behind = false := by
  obtain ⟨function, group, word, rfl, is, isFunction, isGroup⟩ := isCall
  obtain ⟨aggregate, isAggregate⟩ := Option.isSome_iff_exists.mp isFunction
  have opens : Token.frontKind (function :: group ++ text).tail = .symbol .leftParen := by
    rw [List.cons_append, List.tail_cons, Token.frontKind_append (Token.Closing.ne_nil isGroup),
      isGroup.frontKind]
  obtain ⟨call, others, ⟨called, arguments, _, rfl, _, _, isGroup'⟩, same, operator⟩ :=
    @ExprStep.Accepts.exists_call _ _ accepts aggregate (by rw [opens]; rfl)
      (by rw [List.cons_append, Token.frontKind_cons, is]; exact isAggregate)
  rw [List.cons_append, List.cons_append, List.cons.injEq] at same
  obtain ⟨rfl, same⟩ := same
  obtain rfl := isGroup.eq_of_append isGroup' same
  obtain rfl := List.append_cancel_left same
  have holds := operator.resolve_left expression.some
  rw [passes.frontKind expression.some] at holds
  exact atItemEnd_of_holds holds

/-- Where no call begins an expression, none begins at its first token. -/
theorem aggregateAt?_eq_none (noCall : ∀ first rest, text = first ++ rest → ¬ Projected.IsCall first)
    (accepts : ExprStep.Accepts before.cursor text) (some : text ≠ []) {middle : Cursor}
    (passes : Passes before.cursor text middle) (ends : atTerminator middle = true) :
    aggregateAt? before.cursor = none := by
  refine Option.eq_none_iff_forall_ne_some.mpr fun function found => ?_
  rw [aggregateAt?, kind_peek_one, kind_eq_frontKind, passes.rest, Token.frontKind_append some] at found
  obtain ⟨opens, calls⟩ := Option.ite_none_right_eq_some.mp found
  obtain ⟨first, text, rfl⟩ := List.exists_cons_of_ne_nil some
  rcases text with _ | ⟨second, text⟩
  · rw [List.singleton_append, List.tail_cons, ← kind_eq_frontKind] at opens
    unfold atTerminator at ends
    split at ends <;> simp_all [TokenKind.sameShape]
  · obtain ⟨call, rest, isCall, same, _⟩ :=
      @ExprStep.Accepts.exists_call _ _ accepts function opens calls
    exact noCall call rest same isCall

/-- What stands at the front of an expression is no star, and begins an item. -/
theorem front_of_accepts (expression : Projected.IsExpression dialect call text)
    (accepts : ExprStep.Accepts before.cursor (call ++ text)) {rest : List Token}
    (stands : before.cursor.rest = call ++ text ++ rest) :
    (before.cursor.at? (.symbol .star) || Text.stripQuotes before.cursor.lexeme == "*") = false ∧
      startsItem before.cursor.kind = true ∧
      ∀ word, dialect.itemWord = some word → before.cursor.atWord? word = false := by
  obtain ⟨first, others, are⟩ :=
    List.exists_cons_of_ne_nil (List.append_ne_nil_of_right_ne_nil call expression.some)
  have current : before.cursor.current = first := current_of_cons (stands.trans (by rw [are]; rfl))
  have atFront : first ∈ (call ++ text).head? := by
    rw [are]
    rfl
  obtain ⟨starts, noMark⟩ := accepts.begins
  have kind : Token.frontKind (call ++ text) = before.cursor.kind := by
    rw [Cursor.kind, current, are]
    rfl
  rw [kind] at starts noMark
  refine ⟨?_, starts, fun word is => ?_⟩
  · rw [Bool.or_eq_false_iff, Cursor.lexeme, current]
    exact ⟨Bool.eq_false_iff.mpr (mt at?_symbol.mp noMark),
      beq_eq_false_iff_ne.mpr (expression.noStar first atFront)⟩
  · rw [Cursor.atWord?, Cursor.lexeme, current]
    exact expression.noWord word is first atFront

/-- Tokens that the reader of expressions accepts are read as one item, which is the expression. -/
theorem itemReads_of_accepts {middle last : Cursor}
    (expression : Projected.IsExpression dialect call text)
    (accepts : ExprStep.Accepts before.cursor (call ++ text))
    (ordered : (call ++ text).Pairwise fun first second => first.start < second.start)
    (lexed : Token.AreLexed (call ++ text)) (passes : Passes before.cursor (call ++ text) middle)
    (ends : atTerminator middle = true) {aliasGiven : Option String}
    (aliased : Yields Scan.aliasName middle aliasGiven last) (same : last.text = before.cursor.text) :
    ∃ after, after.cursor = last ∧ ItemReads { dialect with itemWord := none } position before
      (.plain (Text.stripQuotes ((Token.cover (call ++ text)).slice before.cursor.text)) aliasGiven)
      after := by
  have begins : ∀ token ∈ (call ++ text).head?, token.start = before.cursor.start := by
    refine @Moves.start_head? before.cursor middle (call ++ text) [] ?_
    rw [List.append_nil]
    exact passes.toMoves
  have plain {between : Analysis} {afterValue : Bool} (value : call = [] → afterValue = false)
      (behind : Passes between.cursor text middle) : ∃ after, after.cursor = last ∧
        Yields (plainItem before.cursor.start afterValue) between
          (.plain (Text.stripQuotes ((Token.cover (call ++ text)).slice before.cursor.text))
            aliasGiven) after := by
    have answered := plainItem_of_goes (goesOn_of_accepts expression accepts lexed) expression.some
      behind ends (joined_of_accepts expression accepts value)
      (start_lt_stopOf expression.some begins ordered lexed) aliased
    rwa [Cursor.source, same, ← Token.cover_append expression.some begins] at answered
  obtain ⟨noStar, starts, _⟩ := front_of_accepts expression accepts passes.rest
  rcases expression.begins with isCall | ⟨rfl, noCall⟩
  · obtain ⟨behind, called, rest⟩ := passes.split
    have goes := goes_behind_call expression accepts isCall rest
    obtain ⟨function, group, word, rfl, is, isFunction, isGroup⟩ := isCall
    obtain ⟨after, stands, answers⟩ := @plain { before with cursor := behind } true
      (fun none => absurd none (List.cons_ne_nil function group)) rest
    obtain ⟨aggregate, isAggregate⟩ := Option.isSome_iff_exists.mp isFunction
    obtain ⟨_, one, grouped⟩ := called.uncons
    obtain rfl := one.eq_advance (by simp [is])
    have quoted := group_answers isGroup grouped fun token member =>
      (lexed token (by simp [member])).kind_ne_endOfInput
    have found := (aggregateAt?_of_call called.rest is isGroup).trans isAggregate
    exact ⟨after, stands, .callInText noStar found quoted goes answers⟩
  · obtain ⟨after, stands, answers⟩ := @plain before false (fun _ => rfl) passes
    have noFunction := aggregateAt?_eq_none noCall accepts expression.some passes ends
    exact ⟨after, stands, .text noStar noFunction starts answers⟩

/-- Reading the item of an expression changes the statement by edits only. -/
theorem item_of_reads {answer : Item} {after : Analysis}
    (noWord : ∀ word, dialect.itemWord = some word → before.cursor.atWord? word = false)
    (reads : ItemReads { dialect with itemWord := none } position before answer after) :
    Yields (item dialect position) before answer after ∧
      ∃ edits, after.statement = { before.statement with edits } := by
  have answers := (@yields_item _ _ { dialect with itemWord := none } rfl _ _).mpr reads
  refine ⟨(yields_item_of_noWord noWord).mpr answers, ?_⟩
  refine (item_keeps (P := fun statement => ∃ edits, statement = { before.statement with edits })
    (fun statement edit known => ?_) rfl position).of_yields answers ⟨_, rfl⟩
  obtain ⟨edits, rfl⟩ := known
  exact ⟨_, rfl⟩

end Item

section Projection
variable {before : Analysis} {dialect : Dialect} {call text named front rest : List Token}

/-- The tokens of a list with a single item: those of an expression with an alias behind `AS`, or
without one, before `FROM` or at the end of the text. -/
structure IsSingle (named rest : List Token) : Prop where
  named : named = [] ∨ ∃ word name, named = [word, name] ∧ word.kind = .keyword .AS ∧
    name.kind.isIdentifier = true
  rest : rest = [] ∨ Token.frontKind rest = .keyword .FROM

/-- The alias of an item is the name behind `AS`. -/
theorem IsSingle.aliased (single : IsSingle named rest) {middle last : Cursor}
    (passes : Passes middle named last) (stands : last.rest = rest) :
    atTerminator middle = true ∧ last.kind ≠ .symbol .comma ∧
      Yields Scan.aliasName middle (Token.aliasIn named) last := by
  have next : last.kind = .endOfInput ∨ last.kind = .keyword .FROM := by
    rw [kind_eq_frontKind, stands]
    exact single.rest.imp (fun none => by rw [none]; rfl) id
  have noComma : last.kind ≠ .symbol .comma := by
    rcases next with is | is <;> simp [is]
  rcases single.named with rfl | ⟨word, name, rfl, is, isName⟩
  · obtain rfl := passes.unique (.refl _)
    refine ⟨?_, noComma, aliasName_answers ?_ passes⟩
    · unfold atTerminator
      rcases next with is | is
      · rw [is]
      · rw [is]
        rfl
    · rcases next with is | is <;> rw [is] <;> exact .absent nofun rfl
  · have kind : middle.kind = .keyword .AS := by
      rw [← passes.frontKind (by simp), Token.frontKind_cons, is]
    refine ⟨?_, noComma, aliasName_answers ?_ passes⟩
    · unfold atTerminator
      rw [kind]
      rfl
    · refine .introduced is ?_ ?_
      · cases kind : name.kind <;> simp_all [TokenKind.isIdentifier, TokenKind.isSymbol]
      · intro ended
        simp [ended, TokenKind.isIdentifier] at isName

/-- A projection list of one expression is one item, whose expression and alias are the given ones. -/
theorem expression_projected (inText : Token.list before.cursor.text = front ++ before.cursor.rest)
    (stands : before.cursor.rest = call ++ text ++ named ++ rest)
    (accepts : ExprStep.Accepts before.cursor (call ++ text))
    (expression : Projected.IsExpression dialect call text) (single : IsSingle named rest) :
    ∃ after edits, Yields (projection dialect) before () after ∧ after.cursor.rest = rest ∧
      after.statement =
        { before.statement with
          items := before.statement.items ++
            [.plain (Text.stripQuotes ((Token.cover (call ++ text)).slice before.cursor.text))
              (Token.aliasIn named)]
          edits
          projectionEnd := after.cursor.start } := by
  rw [List.append_assoc] at stands
  obtain ⟨middle, first, left⟩ := exists_passes stands
  obtain ⟨last, second, ended⟩ := exists_passes left
  obtain ⟨ends, noComma, aliased⟩ := single.aliased second ended
  have ordered := Token.pairwise_start_lt before.cursor.text
  have lexed := Token.areLexed_list before.cursor.text
  rw [inText, stands] at ordered lexed
  obtain ⟨ordered, _, _⟩ := List.pairwise_append.mp (List.pairwise_append.mp ordered).2.1
  obtain ⟨_, _, noWord⟩ := front_of_accepts expression accepts stands
  obtain ⟨between, rfl, reads⟩ := @itemReads_of_accepts before dialect call text 1 middle last
    expression accepts ordered lexed.right.left first ends _ aliased (second.text.trans first.text)
  obtain ⟨answers, edits, kept⟩ := item_of_reads noWord reads
  have round := yields_itemRound.mpr ⟨_, between, answers, .inl ⟨noComma, rfl, rfl⟩⟩
  refine ⟨_, edits, yields_bind.mpr ⟨(), _, yields_rounding_of_done round,
    Step.yields_look_bind.mpr (yields_change.mpr rfl)⟩, ended, ?_⟩
  simp only [Analysis.add, kept, Item.isStar, Bool.or_false]
  rfl

/-- The sum of a count and a column is one item under its alias. -/
theorem expression_projected_of_sum :
    let text := "SELECT COUNT(t.a) + t.b AS n FROM t"
    let before : Analysis := { cursor := { text, rest := (Token.list text).tail } }
    let call : List Token := [⟨.keyword .COUNT, 7, "COUNT"⟩, ⟨.symbol .leftParen, 12, "("⟩,
      ⟨.identifier "t", 13, "t"⟩, ⟨.symbol .dot, 14, "."⟩, ⟨.identifier "a", 15, "a"⟩,
      ⟨.symbol .rightParen, 16, ")"⟩]
    let behind : List Token := [⟨.symbol .plus, 18, "+"⟩, ⟨.identifier "t", 20, "t"⟩,
      ⟨.symbol .dot, 21, "."⟩, ⟨.identifier "b", 22, "b"⟩]
    ExprStep.Accepts before.cursor (call ++ behind) ∧
      Projected.IsExpression .generic call behind ∧ ∃ after,
        Yields (projection .generic) before () after ∧
        after.statement.items = [.plain "COUNT(t.a) + t.b" (some "n")] := by
  intro text before call behind
  have isGroup : Token.IsGroup call.tail :=
    .opens rfl (.other nofun nofun (.other nofun nofun (.other nofun nofun (.last rfl))))
  have accepts : ExprStep.Accepts before.cursor (call ++ behind) := by decide +kernel
  have noEscape : ∀ front escape last, call ++ behind = front ++ [escape, last] →
      Text.sameIgnoringCase escape.lexeme "ESCAPE" = true → last.kind.readsAsAlias = false := by
    intro front escape last same escapes
    have split : (call ++ behind.take 2) ++ behind.drop 2 = front ++ [escape, last] := same
    obtain ⟨rfl, rfl⟩ : _ = escape ∧ _ = last := by simpa [behind] using (List.append_inj' split rfl).2
    exact absurd escapes (by decide)
  have expression : Projected.IsExpression .generic call behind :=
    { begins := .inl ⟨_, _, .COUNT, rfl, rfl, rfl, isGroup⟩
      some := by decide
      noStar := by decide
      noWord := nofun
      guarded := ⟨by decide, by decide⟩
      noExists := by decide
      noEscape }
  let named : List Token := [⟨.keyword .AS, 24, "AS"⟩, ⟨.identifier "n", 27, "n"⟩]
  let rest : List Token := [⟨.keyword .FROM, 29, "FROM"⟩, ⟨.identifier "t", 34, "t"⟩]
  have stands : before.cursor.rest = call ++ behind ++ named ++ rest := by decide +kernel
  obtain ⟨after, edits, answers, _, statement⟩ :=
    @expression_projected before .generic call behind named [⟨.keyword .SELECT, 0, "SELECT"⟩] rest
      (by decide +kernel) stands accepts expression ⟨.inr ⟨_, _, rfl, rfl, rfl⟩, .inr rfl⟩
  have quoted : Text.stripQuotes ((Token.cover (call ++ behind)).slice text) = "COUNT(t.a) + t.b" := by
    decide +kernel
  refine ⟨accepts, expression, after, answers, ?_⟩
  rw [statement, quoted]
  rfl

/-- A word that ends items ends them also as a part of a name. -/
theorem part_of_name_ends_item :
    let text := "SELECT t.limit FROM t"
    let cursor : Cursor := { text, rest := (Token.list text).tail }
    let tokens : List Token :=
      [⟨.identifier "t", 7, "t"⟩, ⟨.symbol .dot, 8, "."⟩, ⟨.keyword .LIMIT, 9, "limit"⟩]
    cursor.rest = tokens ++ [⟨.keyword .FROM, 15, "FROM"⟩, ⟨.identifier "t", 20, "t"⟩] ∧
      ExprStep.Accepts cursor tokens ∧
      (projection .generic { cursor }).2.statement.items = [.plain "t." none] ∧
      Statement.ofText .generic text =
        .error (.unexpected .endOfStatement (.keyword .LIMIT) ⟨9, 14⟩) := by
  decide +kernel

end Projection

end AnalysisStep

end SelectRouting
