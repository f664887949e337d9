import SelectRouting.Proofs.ExpressionTrees

/-!
# Readers on tokens that they can read

A reader of expressions answers where the tokens that it looks for stand. Each is described between
two states of which the second stands behind the tokens and has collected the owners among them
(`ExprState.Crosses`).
-/

namespace SelectRouting

namespace ExprState

/-- The state `after` stands behind the tokens, which begin at `before` in a text, and has collected
the owners. -/
structure Crosses (before : ExprState) (tokens owners : List Token) (after : ExprState) : Prop where
  lexed : Token.AreLexed before.cursor.rest
  passes : Cursor.Passes before.cursor tokens after.cursor
  qualifiers : after.qualifiers = before.qualifiers ++ owners.map Name.ofToken

variable {before after : ExprState} {token : Token} {tokens one two owners first second : List Token}

theorem exists_crosses {rest : List Token} (stands : before.cursor.rest = tokens ++ rest)
    (lexed : Token.AreLexed before.cursor.rest) (owners : List Token) :
    ∃ after, Crosses before tokens owners after ∧ after.cursor.rest = rest := by
  obtain ⟨cursor, passes, behind⟩ := Cursor.exists_passes stands
  exact ⟨⟨cursor, before.qualifiers ++ owners.map Name.ofToken⟩, ⟨lexed, passes, rfl⟩, behind⟩

theorem Crosses.split (crosses : Crosses before (one ++ two) (first ++ second) after) :
    ∃ between, Crosses before one first between ∧ Crosses between two second after := by
  obtain ⟨cursor, left, right⟩ := crosses.passes.split
  have lexed := crosses.lexed
  rw [left.rest] at lexed
  refine ⟨⟨cursor, before.qualifiers ++ first.map Name.ofToken⟩, ⟨crosses.lexed, left, rfl⟩,
    lexed.right, right, ?_⟩
  rw [crosses.qualifiers, List.map_append, List.append_assoc]

theorem Crosses.uncons_append (crosses : Crosses before (token :: tokens) (first ++ second) after) :
    ∃ between, Crosses before [token] first between ∧ Crosses between tokens second after :=
  @Crosses.split before after [token] tokens first second crosses

theorem Crosses.uncons (crosses : Crosses before (token :: tokens) owners after) :
    ∃ between, Crosses before [token] [] between ∧ Crosses between tokens owners after :=
  @Crosses.uncons_append before after token tokens [] owners crosses

theorem Crosses.unsnoc (crosses : Crosses before (tokens ++ [token]) owners after) :
    ∃ between, Crosses before tokens owners between ∧ Crosses between [token] [] after := by
  rw [← List.append_nil owners] at crosses
  exact crosses.split

theorem Crosses.kind (crosses : Crosses before (token :: tokens) owners after) :
    before.cursor.kind = token.kind :=
  congrArg Token.kind (Cursor.current_of_cons crosses.passes.rest)

theorem Crosses.lexed_after (crosses : Crosses before tokens owners after) :
    Token.AreLexed after.cursor.rest := by
  have lexed := crosses.lexed
  rw [crosses.passes.rest] at lexed
  exact lexed.right

theorem Crosses.lexed_tokens (crosses : Crosses before tokens owners after) :
    Token.AreLexed tokens := by
  have lexed := crosses.lexed
  rw [crosses.passes.rest] at lexed
  exact lexed.left

theorem Crosses.frontKind (crosses : Crosses before tokens owners after) (some : tokens ≠ []) :
    Token.frontKind tokens = before.cursor.kind :=
  crosses.passes.frontKind some

/-- The state behind the tokens is determined. -/
theorem Crosses.unique {other : ExprState} (left : Crosses before tokens owners after)
    (right : Crosses before tokens owners other) : after = other := by
  have cursor := left.passes.unique right.passes
  have qualifiers := left.qualifiers.trans right.qualifiers.symm
  cases after
  cases other
  cases cursor
  cases qualifiers
  rfl

theorem Crosses.eq_advance (crosses : Crosses before [token] [] after)
    (uncounted : token.kind ≠ .symbol .question) :
    after = { before with cursor := before.cursor.advance } := by
  have cursor := crosses.passes.eq_advance uncounted
  have qualifiers := crosses.qualifiers
  rw [List.map_nil, List.append_nil] at qualifiers
  cases after
  cases cursor
  cases qualifiers
  rfl

theorem Crosses.eq_before (crosses : Crosses before [] [] after) : after = before :=
  crosses.unique ⟨crosses.lexed, .refl _, by simp⟩

/-- What is crossed covers the bytes between the two states. -/
theorem Crosses.cover (crosses : Crosses before tokens owners after) (some : tokens ≠ []) :
    Token.cover tokens = ⟨before.cursor.start, after.cursor.previous.stop⟩ :=
  crosses.passes.cover some

end ExprState

namespace ExprStep
open Scan Step Cursor ExprState ExprTree

variable {before after : ExprState} {token : Token} {tokens owners : List Token}

section Marks
variable {word : Keyword} {sign : Symbol}

/-- A scan that answers on the cursor answers on the state. -/
theorem yields_scan_of_crosses {α : Type} {scan : Scan α} {answer : α}
    (crosses : Crosses before tokens [] after)
    (answers : Yields scan before.cursor answer after.cursor) :
    Yields (liftM scan : ExprStep α) before answer after := by
  refine yields_scan.mpr ⟨_, answers, ?_⟩
  have qualifiers := crosses.qualifiers
  rw [List.map_nil, List.append_nil] at qualifiers
  cases after
  cases qualifiers
  rfl

theorem advance_answers (crosses : Crosses before [token] [] after)
    (uncounted : token.kind ≠ .symbol .question) :
    Yields (liftM advance : ExprStep Unit) before () after :=
  yields_scan_of_crosses crosses (Scan.yields_advance.mpr (crosses.passes.eq_advance uncounted))

theorem skipWhen_answers {property : Cursor → Bool} (crosses : Crosses before [token] [] after)
    (uncounted : token.kind ≠ .symbol .question) (holds : property before.cursor = true) :
    Yields (liftM (skipWhen property) : ExprStep Bool) before true after :=
  yields_scan_of_crosses crosses
    (yields_skipWhen.mpr (.inl ⟨holds, rfl, crosses.passes.eq_advance uncounted⟩))

theorem skipWhen_declines {property : Cursor → Bool} (fails : property before.cursor = false) :
    Yields (liftM (skipWhen property) : ExprStep Bool) before false before :=
  yields_scan.mpr ⟨_, yields_skipWhen.mpr (.inr ⟨fails, rfl, rfl⟩), rfl⟩

theorem skipSymbol_answers (crosses : Crosses before [token] [] after)
    (is : token.kind = .symbol sign) (uncounted : sign ≠ .question) :
    Yields (liftM (skipSymbol sign) : ExprStep Bool) before true after :=
  skipWhen_answers crosses (by simpa [is] using uncounted) (at?_symbol.mpr (crosses.kind.trans is))

theorem skipSymbol_declines (elsewhere : before.cursor.kind ≠ .symbol sign) :
    Yields (liftM (skipSymbol sign) : ExprStep Bool) before false before :=
  skipWhen_declines (Bool.eq_false_iff.mpr (mt at?_symbol.mp elsewhere))

theorem skipAnyKeyword_answers {words : List Keyword} (crosses : Crosses before [token] [] after)
    (is : token.kind = .keyword word) (member : word ∈ words) :
    Yields (liftM (skipAnyKeyword words) : ExprStep Bool) before true after :=
  skipWhen_answers crosses (by simp [is])
    (atKeyword?_iff.mpr ⟨word, member, crosses.kind.trans is⟩)

theorem skipKeyword_answers (crosses : Crosses before [token] [] after)
    (is : token.kind = .keyword word) :
    Yields (liftM (skipKeyword word) : ExprStep Bool) before true after :=
  skipAnyKeyword_answers crosses is (List.mem_singleton.mpr rfl)

theorem skipKeyword_declines (elsewhere : before.cursor.kind ≠ .keyword word) :
    Yields (liftM (skipKeyword word) : ExprStep Bool) before false before := by
  refine skipWhen_declines (Bool.eq_false_iff.mpr fun stands => ?_)
  obtain ⟨other, member, is⟩ := atKeyword?_iff.mp stands
  rw [List.mem_singleton.mp member] at is
  exact elsewhere is

/-- A symbol that stands at the cursor is passed. -/
theorem expectSymbol_stands {cursor : Cursor} (stands : cursor.kind = .symbol sign) :
    Yields (expectSymbol sign) cursor () cursor.advance :=
  yields_bind.mpr ⟨true, _, yields_skipWhen.mpr (.inl ⟨at?_symbol.mpr stands, rfl, rfl⟩),
    yields_pure.mpr ⟨rfl, rfl⟩⟩

theorem expectSymbol_answers (crosses : Crosses before [token] [] after)
    (is : token.kind = .symbol sign) (uncounted : sign ≠ .question) :
    Yields (liftM (expectSymbol sign) : ExprStep Unit) before () after := by
  refine yields_scan_of_crosses crosses ?_
  rw [crosses.passes.eq_advance (by simpa [is] using uncounted)]
  exact expectSymbol_stands (crosses.kind.trans is)

theorem expectKeyword_answers (crosses : Crosses before [token] [] after)
    (is : token.kind = .keyword word) :
    Yields (liftM (expectKeyword word) : ExprStep Unit) before () after :=
  yields_scan_of_crosses crosses (Scan.expectKeyword_answers is crosses.passes)

theorem takeName_answers (crosses : Crosses before [token] [] after)
    (uncounted : token.kind ≠ .symbol .question) :
    Yields takeName before (.ofToken token) after := by
  refine yields_takeName.mpr ⟨?_, crosses.eq_advance uncounted⟩
  rw [current_of_cons crosses.passes.rest]

theorem parameter_answers (crosses : Crosses before [token] [] after)
    (is : token.kind = .symbol .question) :
    Yields (liftM parameter : ExprStep Nat) before before.cursor.parameters after := by
  refine yields_scan_of_crosses crosses
    (yields_bind.mpr ⟨(), _, expectSymbol_stands (crosses.kind.trans is), ?_⟩)
  rw [Scan.yields_look_bind, yields_modify_bind, yields_pure]
  exact ⟨(parameters_advance _).symm, crosses.passes.eq_counted is⟩

theorem uncounted_of_isWritten {kind : TokenKind} (written : kind.isWritten = true) :
    kind ≠ .symbol .question := by
  rintro rfl
  cases written

theorem not_atSymbolOrEnd (crosses : Crosses before (token :: tokens) owners after)
    (written : token.kind.isWritten = true) : ¬ before.cursor.atSymbolOrEnd = true := by
  rw [Bool.not_eq_true, atSymbolOrEnd_eq_false, crosses.kind]
  exact TokenKind.isWritten_iff.mp written

end Marks

section Arguments

/-- A token takes its turn in the arguments of a function, where it begins no subquery. -/
theorem argumentsRound_answers {depth : Nat} {answer : Round Nat Unit}
    (turns : Token.Turns depth token answer)
    (crosses : Crosses before [token] (Token.ownerBefore after.cursor.rest token) after)
    (noSubquery : Token.subqueryBefore after.cursor.rest token = []) :
    Yields (argumentsRound depth) before answer after := by
  have tail : before.cursor.rest.tail = after.cursor.rest := by simp [crosses.passes.rest]
  -- a token that is no name before a point is passed and not collected
  have plainly (unnamed : Token.ownerBefore after.cursor.rest token = []) :
      Crosses before [token] [] after := by rwa [unnamed] at crosses
  have unnamed (other : token.kind.isIdentifier = false) :
      Token.ownerBefore after.cursor.rest token = [] := by simp [Token.ownerBefore, other]
  unfold argumentsRound
  rw [Step.yields_look_bind]
  simp only [id_eq, cursor_expr, crosses.kind]
  cases turns with
  | opens opening =>
    have passed := plainly (unnamed (by simp [opening, TokenKind.isIdentifier]))
    have noSelect : ¬ before.cursor.opensSubquery = true := by
      rw [opensSubquery_iff, tail]
      intro select
      simp [Token.subqueryBefore, opening, select] at noSubquery
    simp only [opening, noSelect]
    exact yields_bind.mpr ⟨(), after, advance_answers passed (by simp [opening]),
      yields_pure.mpr ⟨rfl, rfl⟩⟩
  | last closing =>
    have passed := plainly (unnamed (by simp [closing, TokenKind.isIdentifier]))
    simp only [closing]
    exact yields_bind.mpr ⟨(), after, advance_answers passed (by simp [closing]),
      yields_pure.mpr ⟨rfl, rfl⟩⟩
  | closes closing =>
    have passed := plainly (unnamed (by simp [closing, TokenKind.isIdentifier]))
    simp only [closing]
    exact yields_bind.mpr ⟨(), after, advance_answers passed (by simp [closing]),
      yields_pure.mpr ⟨rfl, rfl⟩⟩
  | other noOpening noClosing =>
    split
    · next opening => exact absurd opening noOpening
    · next closing => exact absurd closing noClosing
    · next placeholder =>
      have passed := plainly (unnamed (by simp [placeholder, TokenKind.isIdentifier]))
      exact yields_bind.mpr ⟨_, after, parameter_answers passed placeholder,
        yields_pure.mpr ⟨rfl, rfl⟩⟩
    · next name named =>
      have passed : Crosses before [token] [] { before with cursor := after.cursor } :=
        ⟨crosses.lexed, crosses.passes, by simp⟩
      have taken := takeName_answers passed (by simp [named])
      refine yields_bind.mpr ⟨_, _, taken, ?_⟩
      rw [Step.yields_look_bind, cursor_expr, yields_ite, at?_symbol, kind_eq_frontKind]
      by_cases point : Token.frontKind after.cursor.rest = .symbol .dot
      · have collected : after.qualifiers = before.qualifiers ++ [.ofToken token] := by
          simpa [Token.ownerBefore, named, TokenKind.isIdentifier, point] using crosses.qualifiers
        exact .inl ⟨point, yields_bind.mpr ⟨(), after, yields_qualify.mpr (by rw [← collected]),
          yields_pure.mpr ⟨rfl, rfl⟩⟩⟩
      · exact .inr ⟨point, yields_pure.mpr ⟨rfl,
          (plainly (Token.ownerBefore_of_front point token)).unique passed⟩⟩
    · next ended => exact absurd ended (crosses.lexed_tokens token (by simp)).kind_ne_endOfInput
    · next noPlaceholder noName _ =>
      have other : token.kind.isIdentifier = false := by
        unfold TokenKind.isIdentifier
        split
        · next name named => exact absurd named (noName name)
        · rfl
      exact yields_bind.mpr ⟨(), after, advance_answers (plainly (unnamed other)) noPlaceholder,
        yields_pure.mpr ⟨rfl, rfl⟩⟩

/-- The arguments of a function in which no subquery begins are passed, and the names before points in
them are collected. -/
theorem argumentsRounds_of_closing {depth : Nat} (closing : Token.Closing depth tokens)
    (crosses : Crosses before tokens (Token.owners tokens) after)
    (noSubquery : Token.subqueries tokens = []) : Rounds argumentsRound depth before () after := by
  -- a token that is not the last takes its turn before the others take theirs
  have round {depth following : Nat} {token : Token} {tokens : List Token} {before : ExprState}
      (turns : Token.Turns depth token (.next following)) (inner : Token.Closing following tokens)
      (crosses : Crosses before (token :: tokens) (Token.owners (token :: tokens)) after)
      (noSubquery : Token.subqueries (token :: tokens) = [])
      (ih : ∀ {between : ExprState}, Crosses between tokens (Token.owners tokens) after →
        Token.subqueries tokens = [] → Rounds argumentsRound following between () after) :
      Rounds argumentsRound depth before () after := by
    obtain ⟨between, first, rest⟩ := crosses.uncons_append
    obtain ⟨noFirst, noRest⟩ := List.append_eq_nil_iff.mp noSubquery
    have front : Token.frontKind between.cursor.rest = Token.frontKind tokens := by
      rw [rest.passes.rest, Token.frontKind_append inner.ne_nil]
    refine .next (argumentsRound_answers turns ?_ ?_) (ih rest noRest)
    · rwa [Token.ownerBefore, front]
    · rwa [Token.subqueryBefore, front]
  induction closing generalizing before with
  | @last token closing =>
    refine .done (argumentsRound_answers (.last closing) ?_
      (Token.subqueryBefore_of_kind (by simp [closing]) _))
    simpa [Token.owners, Token.ownerBefore, closing, TokenKind.isIdentifier] using crosses
  | opens opening inner ih => exact round (.opens opening) inner crosses noSubquery ih
  | closes closing inner ih => exact round (.closes closing) inner crosses noSubquery ih
  | other noOpening noClosing inner ih =>
    exact round (.other noOpening noClosing) inner crosses noSubquery ih

theorem argumentsRound_shrinks {depth : Nat} {answer : Round Nat Unit}
    (answers : Yields (argumentsRound depth) before answer after) :
    after.cursor.rest.length < before.cursor.rest.length := by
  have passed {kind : TokenKind} (stands : before.cursor.kind = kind) (inside : kind ≠ .endOfInput)
      (behind : after.cursor.rest = before.cursor.rest.tail) :
      after.cursor.rest.length < before.cursor.rest.length := by
    obtain ⟨token, rest, tokens, _, _⟩ := exists_token stands inside
    simp [behind, tokens]
  unfold argumentsRound at answers
  simp only [Step.yields_look_bind, id_eq, cursor_expr] at answers
  split at answers
  · next named =>
    simp only [yields_ite, not_yields_throw_bind, and_false, false_or, Step.yields_advance_bind,
      yields_pure] at answers
    obtain ⟨_, _, rfl⟩ := answers
    exact passed named (by simp) (rest_advance _)
  · next named =>
    rw [Step.yields_advance_bind, yields_pure] at answers
    obtain ⟨_, rfl⟩ := answers
    exact passed named (by simp) (rest_advance _)
  · next named =>
    obtain ⟨_, _, counted, rest⟩ := yields_bind.mp answers
    obtain ⟨_, rfl⟩ := yields_pure.mp rest
    obtain ⟨cursor, scanned, rfl⟩ := yields_scan.mp counted
    obtain ⟨_, token, _, passes⟩ := parameter_passes scanned
    simp [passes.rest]
  · next named =>
    obtain ⟨_, _, taken, rest⟩ := yields_bind.mp answers
    obtain ⟨_, rfl⟩ := yields_takeName.mp taken
    rw [Step.yields_look_bind, yields_ite] at rest
    simp only [yields_bind, yields_qualify, yields_pure] at rest
    rcases rest with ⟨_, _, _, rfl, _, rfl⟩ | ⟨_, _, rfl⟩ <;>
    exact passed named (by simp) (rest_advance _)
  · exact absurd answers Step.not_yields_fail
  · next inside =>
    rw [Step.yields_advance_bind, yields_pure] at answers
    obtain ⟨_, rfl⟩ := answers
    exact passed rfl inside (rest_advance _)

/-- The arguments of a function are passed as a whole. -/
theorem arguments_answers (isGroup : Token.IsGroup tokens)
    (crosses : Crosses before tokens (Token.owners tokens) after)
    (noSubquery : Token.subqueries tokens = []) : Yields arguments before () after :=
  yields_rounding_of_rounds (argumentsRounds_of_closing isGroup crosses noSubquery)
    argumentsRound_shrinks

end Arguments

section Names
variable {start : Nat}

/-- Behind a point one more part of a name is taken. -/
theorem nameRound_goesOn {owner : Option Name} {name : Name} {point part : Token}
    (isPoint : point.kind = .symbol .dot) (written : part.kind.isWritten = true)
    (crosses : Crosses before [point, part] [] after) :
    Yields (nameRound start (owner, name)) before (.next (some name, .ofToken part)) after := by
  obtain ⟨between, first, second⟩ := crosses.uncons
  refine yields_bind.mpr ⟨true, between, skipSymbol_answers first isPoint (by simp), ?_⟩
  rw [if_pos rfl]
  have noStar : between.cursor.kind ≠ .symbol .star := by
    rw [second.kind]
    rintro star
    simp [star, TokenKind.isWritten, TokenKind.isSymbol] at written
  refine yields_bind.mpr ⟨false, between, skipSymbol_declines noStar, ?_⟩
  rw [if_neg Bool.false_ne_true, Step.yields_look_bind, cursor_expr,
    if_neg (not_atSymbolOrEnd second written)]
  exact yields_bind.mpr ⟨_, after, takeName_answers second (uncounted_of_isWritten written),
    yields_pure.mpr ⟨rfl, rfl⟩⟩

/-- A name ends where no point stands behind it. -/
theorem nameRound_ends {owner : Option Token} {last : Token}
    (crosses : Crosses before [] owner.toList after)
    (noPoint : before.cursor.kind ≠ .symbol .dot) :
    Yields (nameRound start (owner.map .ofToken, .ofToken last)) before
      (.done (Expr.column owner last)) after := by
  refine yields_bind.mpr ⟨false, before, skipSymbol_declines noPoint, ?_⟩
  rw [if_neg Bool.false_ne_true]
  cases owner with
  | none => exact yields_pure.mpr ⟨rfl, crosses.eq_before⟩
  | some owner =>
    have same : after = { before with qualifiers := before.qualifiers ++ [.ofToken owner] } :=
      crosses.unique ⟨crosses.lexed, .refl _, rfl⟩
    exact yields_bind.mpr ⟨(), after, yields_qualify.mpr same, yields_pure.mpr ⟨rfl, rfl⟩⟩

/-- All columns of the owner that has been read are taken behind a point. -/
theorem nameRound_columns {outer : Option Name} {owner point star : Token}
    (isPoint : point.kind = .symbol .dot) (isStar : star.kind = .symbol .star)
    (crosses : Crosses before [point, star] [owner] after) :
    Yields (nameRound start (outer, .ofToken owner)) before
      (.done (.other ⟨start, after.cursor.previous.stop⟩)) after := by
  obtain ⟨between, first, second⟩ := crosses.uncons
  obtain ⟨behind, third, last⟩ := @Crosses.split between after [star] [] [] [owner] second
  have same : after = { behind with qualifiers := behind.qualifiers ++ [.ofToken owner] } :=
    last.unique ⟨last.lexed, .refl _, rfl⟩
  refine yields_bind.mpr ⟨true, between, skipSymbol_answers first isPoint (by simp), ?_⟩
  rw [if_pos rfl]
  refine yields_bind.mpr ⟨true, behind, skipSymbol_answers third isStar (by simp), ?_⟩
  rw [if_pos rfl]
  refine yields_bind.mpr ⟨(), after, yields_qualify.mpr same, ?_⟩
  exact yields_bind.mpr ⟨_, after, yields_spanningFrom.mpr ⟨rfl, rfl⟩, yields_pure.mpr ⟨rfl, rfl⟩⟩

/-- A name begins with a word or a literal, and goes on with a point if it has more parts. -/
theorem joined_uncons {owners : List (Token × Token)} {last : Token} (dotted : Phrase.Dotted owners)
    (written : last.kind.isWritten = true) :
    ∃ first tokens, Phrase.joined owners ++ [last] = first :: tokens ∧
      first.kind.isWritten = true ∧ (tokens = [] ∨ Token.frontKind tokens = .symbol .dot) := by
  cases owners with
  | nil => exact ⟨last, [], rfl, written, .inl rfl⟩
  | cons part owners =>
    obtain ⟨isWritten, isPoint⟩ := dotted part List.mem_cons_self
    exact ⟨part.1, part.2 :: (Phrase.joined owners ++ [last]), rfl, isWritten, .inr isPoint⟩

/-- The parts of a name are taken one after the other up to the last. -/
theorem nameRounds_reach {owners : List (Token × Token)} {outer : Option Token} {first last : Token}
    (parts : Phrase.joined owners ++ [last] = first :: tokens) (dotted : Phrase.Dotted owners)
    (written : last.kind.isWritten = true) (crosses : Crosses before tokens [] after) :
    Reaches (nameRound start) (outer.map .ofToken, .ofToken first) before
      (((owners.getLast?.map Prod.fst).or outer).map .ofToken, .ofToken last) after := by
  induction owners generalizing outer first tokens before with
  | nil =>
    obtain ⟨rfl, rfl⟩ : last = first ∧ tokens = [] := by simpa [Phrase.joined] using parts
    rw [crosses.eq_before]
    exact .refl
  | cons part owners ih =>
    obtain ⟨owner, point⟩ := part
    obtain ⟨⟨_, isPoint⟩, dotted⟩ := List.forall_mem_cons.mp dotted
    obtain ⟨rfl, rfl⟩ : owner = first ∧ point :: (Phrase.joined owners ++ [last]) = tokens := by
      simpa [Phrase.joined] using parts
    obtain ⟨next, others, names, nextWritten, _⟩ := joined_uncons dotted written
    rw [names] at crosses
    obtain ⟨between, left, right⟩ := @Crosses.split before after [point, next] others [] [] crosses
    have reached : Reaches (nameRound start) ((some owner).map .ofToken, .ofToken next) between
        (((owners.getLast?.map Prod.fst).or (some owner)).map .ofToken, .ofToken last) after :=
      ih names dotted right
    refine .next (nameRound_goesOn isPoint nextWritten left) ?_
    rw [List.getLast?_cons]
    cases last : owners.getLast? with
    | none => simpa [last] using reached
    | some part => simpa [last] using reached

/-- What begins with a word and no call is read as a name from the word on. -/
theorem name_of_rounds {between : ExprState} {first : Token} {expr : Expr}
    (crosses : Crosses before [first] [] between) (written : first.kind.isWritten = true)
    (noGroup : between.cursor.kind ≠ .symbol .leftParen)
    (ran : Rounds (nameRound before.cursor.start) (none, .ofToken first) between expr after) :
    Yields name before expr after := by
  unfold name
  rw [Step.yields_look_bind]
  refine yields_bind.mpr ⟨_, between, takeName_answers crosses (uncounted_of_isWritten written), ?_⟩
  rw [Step.yields_look_bind, cursor_expr, if_neg (mt at?_symbol.mp noGroup)]
  refine yields_rounding_of_rounds ran fun answers => ?_
  rcases nameRound_cases answers with ⟨_, shape, _⟩ | ⟨_, _, _, _, _, _, shape⟩ |
    ⟨point, part, _, _, passes, _, _⟩
  · cases shape
  · cases shape
  · rw [cursor_expr, cursor_expr, passes.rest, List.length_append]
    exact Nat.lt_add_of_pos_left (Nat.zero_lt_succ _)

/-- A column is read where neither a point nor a parenthesis stands behind it. -/
theorem name_answers {owners : List (Token × Token)} {last : Token} (dotted : Phrase.Dotted owners)
    (written : last.kind.isWritten = true)
    (crosses : Crosses before (Phrase.joined owners ++ [last])
      (owners.getLast?.map Prod.fst).toList after)
    (noPoint : after.cursor.kind ≠ .symbol .dot) (noGroup : after.cursor.kind ≠ .symbol .leftParen) :
    Yields name before (Expr.column (owners.getLast?.map Prod.fst) last) after := by
  obtain ⟨first, tokens, names, firstWritten, front⟩ := joined_uncons dotted written
  rw [names] at crosses
  obtain ⟨between, one, rest⟩ := crosses.uncons
  obtain ⟨behind, two, three⟩ : ∃ behind, Crosses between tokens [] behind ∧
      Crosses behind [] (owners.getLast?.map Prod.fst).toList after := by
    rw [← List.append_nil tokens] at rest
    exact @Crosses.split between after tokens [] [] _ rest
  have same : behind.cursor.kind = after.cursor.kind := by
    rw [kind_eq_frontKind, kind_eq_frontKind, three.passes.rest, List.nil_append]
  refine name_of_rounds one firstWritten ?_ ?_
  · rcases front with rfl | front
    · rwa [kind_eq_frontKind, two.passes.rest, List.nil_append, ← kind_eq_frontKind, same]
    · rw [← two.frontKind (by rintro rfl; simp at front), front]
      simp
  · have reached := @nameRounds_reach between behind tokens before.cursor.start owners none first last
      names dotted written two
    rw [Option.or_none] at reached
    exact reached.rounds (.done (nameRound_ends three (by rwa [same])))

/-- All columns of an owner are read. -/
theorem columns_answers {owners : List (Token × Token)} {owner point star : Token}
    (dotted : Phrase.Dotted owners) (written : owner.kind.isWritten = true)
    (isPoint : point.kind = .symbol .dot) (isStar : star.kind = .symbol .star)
    (crosses : Crosses before (Phrase.joined owners ++ [owner] ++ [point, star]) [owner] after) :
    Yields name before (.other ⟨before.cursor.start, after.cursor.previous.stop⟩) after := by
  obtain ⟨first, tokens, names, firstWritten, front⟩ := joined_uncons dotted written
  rw [names] at crosses
  obtain ⟨between, one, rest⟩ := crosses.uncons
  obtain ⟨behind, two, three⟩ := @Crosses.split between after tokens [point, star] [] [owner] rest
  refine name_of_rounds one firstWritten ?_ ?_
  · rcases front with rfl | front
    · rw [rest.kind, isPoint]
      simp
    · rw [← two.frontKind (by rintro rfl; simp at front), front]
      simp
  · exact (@nameRounds_reach between behind tokens before.cursor.start owners none first owner
      names dotted written two).rounds (.done (nameRound_columns isPoint isStar three))

/-- A call that begins with the name of a column is read. -/
theorem called_answers {function : Token} (written : function.kind.isWritten = true)
    (isGroup : Token.IsGroup tokens) (noSubquery : Token.subqueries tokens = [])
    (crosses : Crosses before (function :: tokens) (Token.owners tokens) after) :
    Yields name before (.other ⟨before.cursor.start, after.cursor.previous.stop⟩) after := by
  obtain ⟨between, first, rest⟩ := crosses.uncons
  have opens : between.cursor.kind = .symbol .leftParen := by
    rw [← rest.frontKind (Token.Closing.ne_nil isGroup)]
    exact isGroup.frontKind
  unfold name
  rw [Step.yields_look_bind]
  refine yields_bind.mpr ⟨_, between, takeName_answers first (uncounted_of_isWritten written), ?_⟩
  rw [Step.yields_look_bind, cursor_expr, if_pos (at?_symbol.mpr opens)]
  exact yields_bind.mpr ⟨(), after, arguments_answers isGroup rest noSubquery,
    yields_spanningFrom.mpr ⟨rfl, rfl⟩⟩

end Names

/-- A named parameter or a session variable is passed. -/
theorem parameterName_answers {marks : List Token} {written : Token}
    (are : marks.map Token.kind ∈ Expr.parameterMarks) (isWritten : written.kind.isWritten = true)
    (crosses : Crosses before (marks ++ [written]) [] after) :
    Yields parameterName before () after := by
  obtain ⟨mark, others, rfl, stands, rest⟩ := ExprTree.cases_of_parameterMarks are
  obtain ⟨between, first, crosses⟩ := crosses.uncons
  have advanced : Yields (liftM advance : ExprStep Unit) before () between :=
    advance_answers first (by rcases stands with is | is <;> simp [is])
  refine yields_bind.mpr ⟨(), between, advanced, ?_⟩
  have last {state : ExprState} (crosses : Crosses state [written] [] after) :
      Yields (do
        if ← look (·.atSymbolOrEnd) then fail .name
        advance : ExprStep Unit) state () after := by
    rw [Step.yields_look_bind, cursor_expr, if_neg (not_atSymbolOrEnd crosses isWritten)]
    exact advance_answers crosses (uncounted_of_isWritten isWritten)
  rcases rest with rfl | ⟨second, rfl, isAt⟩
  · have noAt : between.cursor.kind ≠ .symbol .atSign := by
      rw [crosses.kind]
      intro symbol
      simp [symbol, TokenKind.isWritten, TokenKind.isSymbol] at isWritten
    exact yields_bind.mpr ⟨false, between, skipSymbol_declines noAt, last crosses⟩
  · obtain ⟨behind, second, crosses⟩ := crosses.uncons
    exact yields_bind.mpr ⟨true, behind, skipSymbol_answers second isAt (by simp), last crosses⟩

/-- A cast is passed where no parenthesis stands behind a type without arguments. -/
theorem cast_answers {sign type : Token} {arguments : List Token}
    (isSign : sign.kind = .symbol .doubleColon) (written : type.kind.isWritten = true)
    (are : arguments = [] ∨ Token.IsGroup arguments)
    (crosses : Crosses before (sign :: type :: arguments) [] after)
    (noGroup : after.cursor.kind ≠ .symbol .leftParen) : Yields cast before () after := by
  obtain ⟨between, first, crosses⟩ := crosses.uncons
  obtain ⟨behind, second, last⟩ := crosses.uncons
  refine yields_bind.mpr ⟨(), between, expectSymbol_answers first isSign (by simp), ?_⟩
  rw [Step.yields_look_bind, cursor_expr, if_neg (not_atSymbolOrEnd second written)]
  refine yields_bind.mpr ⟨(), behind,
    advance_answers second (uncounted_of_isWritten written), ?_⟩
  rcases are with rfl | isGroup
  · obtain rfl := last.eq_before
    exact yields_bind.mpr ⟨_, after, yields_scan_of_crosses last (group_absent noGroup),
      yields_pure.mpr ⟨rfl, rfl⟩⟩
  · have inside : ∀ token ∈ arguments, token.kind ≠ .endOfInput := fun token member =>
      (last.lexed_tokens token member).kind_ne_endOfInput
    exact yields_bind.mpr ⟨_, after, yields_scan_of_crosses last
      (group_answers isGroup last.passes inside), yields_pure.mpr ⟨rfl, rfl⟩⟩

section Operands
variable {nested : Nat → ExprStep Expr} {expr : Expr}

theorem operand_of_primary (noUnary : Expr.unaryPower? before.cursor.kind = none)
    (answers : Yields (primary nested) before expr after) :
    Yields (operand nested) before expr after := by
  unfold operand
  rw [Step.yields_look_bind, Step.yields_look_bind]
  simp only [cursor_expr, noUnary]
  exact answers

/-- A literal is read as its value, when it is an integer, or as the bytes that it covers. -/
theorem literal_answers
    (literal : (∃ value, token.kind = .integer value) ∨ Expr.isLiteral token.kind = true)
    (crosses : Crosses before [token] [] after) :
    Yields (operand nested) before (shape [token] (.literal token)) after := by
  have kinds : (∃ value, token.kind = .integer value) ∨ (∃ value, token.kind = .float value) ∨
      (∃ text, token.kind = .string text) ∨ (∃ bytes, token.kind = .blob bytes) ∨
      token.kind = .keyword .NULL ∨ token.kind = .keyword .TRUE ∨ token.kind = .keyword .FALSE := by
    refine literal.imp id fun literal => ?_
    unfold Expr.isLiteral at literal
    split at literal <;> simp_all
  have passed := advance_answers crosses
  have current := current_of_cons crosses.passes.rest
  have cover : Token.cover [token] = token.span := rfl
  have stands := crosses.kind
  rcases kinds with ⟨value, is⟩ | ⟨value, is⟩ | ⟨text, is⟩ | ⟨bytes, is⟩ | is | is | is <;>
  · refine operand_of_primary (by simp [stands, is, Expr.unaryPower?]) ?_
    unfold primary
    rw [Step.yields_look_bind]
    simp only [id_eq, cursor_expr, current, shape, cover, is]
    exact yields_bind.mpr ⟨(), after, passed (by simp [is]), yields_pure.mpr ⟨rfl, rfl⟩⟩

/-- A placeholder is read as the byte that it covers. -/
theorem placeholder_answers (is : token.kind = .symbol .question)
    (crosses : Crosses before [token] [] after) :
    Yields (operand nested) before (.other (Token.cover [token])) after := by
  have current := current_of_cons crosses.passes.rest
  refine operand_of_primary (by simp [crosses.kind, is, Expr.unaryPower?]) ?_
  unfold primary
  rw [Step.yields_look_bind]
  simp only [id_eq, cursor_expr, current, is]
  exact yields_bind.mpr ⟨_, after, parameter_answers crosses is, yields_pure.mpr ⟨rfl, rfl⟩⟩

/-- A named parameter or a session variable is read as the bytes that it covers. -/
theorem parameter_reads {marks : List Token} {written : Token}
    (are : marks.map Token.kind ∈ Expr.parameterMarks) (isWritten : written.kind.isWritten = true)
    (crosses : Crosses before (marks ++ [written]) [] after) :
    Yields (operand nested) before (.other ⟨before.cursor.start, after.cursor.previous.stop⟩)
      after := by
  obtain ⟨mark, others, rfl, stands, _⟩ := cases_of_parameterMarks are
  have kind : before.cursor.current.kind = mark.kind := crosses.kind
  have passed := parameterName_answers are isWritten crosses
  rcases stands with is | is <;>
  · refine operand_of_primary (by simp [crosses.kind, is, Expr.unaryPower?]) ?_
    unfold primary
    rw [Step.yields_look_bind]
    simp only [id_eq, cursor_expr, kind, is]
    exact yields_bind.mpr ⟨(), after, passed, yields_spanningFrom.mpr ⟨rfl, rfl⟩⟩

/-- A word that names a column or a function begins nothing else. -/
theorem plain_of_startsCall {word : Keyword} (starts : Expr.startsCall (.keyword word) = true) :
    word ∉ ([.NOT, .NULL, .TRUE, .FALSE, .EXISTS, .CASE] : List Keyword) := by
  intro member
  simp only [List.mem_cons, List.not_mem_nil, or_false] at member
  rcases member with rfl | rfl | rfl | rfl | rfl | rfl <;> cases starts

/-- What begins as a column and is no call of a function is read as a name. -/
theorem operand_of_name (starts : Expr.startsColumn before.cursor.kind = true)
    (noCall : (before.cursor.peek 1).kind ≠ .symbol .leftParen)
    (answers : Yields name before expr after) : Yields (operand nested) before expr after := by
  have kind : before.cursor.current.kind = before.cursor.kind := rfl
  unfold Expr.startsColumn at starts
  split at starts
  · next word is =>
    refine operand_of_primary (by simp [is, Expr.unaryPower?]) ?_
    unfold primary
    rw [Step.yields_look_bind]
    simpa [kind, is] using answers
  · next word is =>
    have plain := @plain_of_startsCall word (by simp [Expr.startsCall, starts])
    simp only [List.mem_cons, List.not_mem_nil, or_false, not_or] at plain
    refine operand_of_primary (by simp [is, Expr.unaryPower?, plain]) ?_
    unfold primary
    rw [Step.yields_look_bind]
    simpa [kind, is, plain, noCall, starts] using answers
  · cases starts

/-- A column is read as itself where neither a point nor a parenthesis stands behind it. -/
theorem column_answers {owners : List (Token × Token)} {last : Token} (dotted : Phrase.Dotted owners)
    (written : last.kind.isWritten = true)
    (starts : Expr.startsColumn (Token.frontKind (Phrase.joined owners ++ [last])) = true)
    (crosses : Crosses before (Phrase.joined owners ++ [last])
      (owners.getLast?.map Prod.fst).toList after)
    (noPoint : after.cursor.kind ≠ .symbol .dot) (noGroup : after.cursor.kind ≠ .symbol .leftParen) :
    Yields (operand nested) before (Expr.column (owners.getLast?.map Prod.fst) last) after := by
  rw [crosses.frontKind (by simp)] at starts
  refine operand_of_name starts ?_ (name_answers dotted written crosses noPoint noGroup)
  obtain ⟨first, tokens, names, _, front⟩ := joined_uncons dotted written
  rw [kind_peek_one, crosses.passes.rest, names, List.cons_append, List.tail_cons]
  rcases front with rfl | front
  · rwa [List.nil_append, ← kind_eq_frontKind]
  · rw [Token.frontKind_append (by rintro rfl; simp at front), front]
    simp

/-- All columns of an owner are read as the bytes that they cover. -/
theorem allColumns_answers {owners : List (Token × Token)} {star : Token} (some : owners ≠ [])
    (dotted : Phrase.Dotted owners)
    (starts : Expr.startsColumn (Token.frontKind (Phrase.joined owners)) = true)
    (isStar : star.kind = .symbol .star)
    (crosses : Crosses before (Phrase.joined owners ++ [star])
      (owners.getLast?.map Prod.fst).toList after) :
    Yields (operand nested) before (.other ⟨before.cursor.start, after.cursor.previous.stop⟩)
      after := by
  obtain ⟨outer, ⟨owner, point⟩, rfl⟩ : ∃ outer part, owners = outer ++ [part] :=
    ⟨_, _, (List.dropLast_concat_getLast some).symm⟩
  obtain ⟨isWritten, isPoint⟩ : owner.kind.isWritten = true ∧ point.kind = .symbol .dot :=
    dotted (owner, point) (by simp)
  have outerDotted : Phrase.Dotted outer := fun part member => dotted part (by simp [member])
  have text : Phrase.joined (outer ++ [(owner, point)]) ++ [star] =
      Phrase.joined outer ++ [owner] ++ [point, star] := by simp [Phrase.joined]
  rw [text, List.getLast?_concat] at crosses
  rw [← Token.frontKind_append (by simp [Phrase.joined]) [star], text,
    crosses.frontKind (by simp)] at starts
  refine operand_of_name starts ?_ (columns_answers outerDotted isWritten isPoint isStar crosses)
  obtain ⟨first, tokens, names, _, front⟩ := joined_uncons outerDotted isWritten
  rw [kind_peek_one, crosses.passes.rest, names, List.cons_append, List.cons_append, List.tail_cons]
  rcases front with rfl | front
  · simp [isPoint]
  · rw [List.append_assoc, Token.frontKind_append (by rintro rfl; simp at front), front]
    simp

/-- A call is read as the bytes that it covers. -/
theorem call_answers {function : Token} (starts : Expr.startsCall function.kind = true)
    (isGroup : Token.IsGroup tokens) (noSubquery : Token.subqueries tokens = [])
    (crosses : Crosses before (function :: tokens) (Token.owners tokens) after) :
    Yields (operand nested) before (.other ⟨before.cursor.start, after.cursor.previous.stop⟩)
      after := by
  have kind : before.cursor.current.kind = function.kind := crosses.kind
  have opens : (before.cursor.peek 1).kind = .symbol .leftParen := by
    rw [kind_peek_one, crosses.passes.rest, List.cons_append, List.tail_cons,
      Token.frontKind_append (Token.Closing.ne_nil isGroup), isGroup.frontKind]
  have written : function.kind.isWritten = true := by
    unfold Expr.startsCall at starts
    split at starts <;> simp_all [TokenKind.isWritten, TokenKind.isSymbol]
  have called := called_answers written isGroup noSubquery crosses
  cases is : function.kind with
  | identifier written =>
    refine operand_of_primary (by simp [crosses.kind, is, Expr.unaryPower?]) ?_
    unfold primary
    rw [Step.yields_look_bind]
    simpa [kind, is] using called
  | keyword word =>
    rw [is] at starts
    have plain := plain_of_startsCall starts
    simp only [List.mem_cons, List.not_mem_nil, or_false, not_or] at plain
    refine operand_of_primary (by simp [crosses.kind, is, Expr.unaryPower?, plain]) ?_
    unfold primary
    rw [Step.yields_look_bind]
    by_cases function : isFunctionName word = true
    · obtain ⟨between, first, rest⟩ := crosses.uncons
      have ran : Yields (do
            advance
            arguments
            spanningFrom before.cursor.current.start : ExprStep Expr) before
          (.other ⟨before.cursor.start, after.cursor.previous.stop⟩) after :=
        yields_bind.mpr ⟨(), between, advance_answers first (by simp [is]),
          yields_bind.mpr ⟨(), after, arguments_answers isGroup rest noSubquery,
            yields_spanningFrom.mpr ⟨rfl, rfl⟩⟩⟩
      simpa [kind, is, opens, function, plain] using ran
    · have column : isColumnName word = true := by simpa [Expr.startsCall, function] using starts
      simpa [kind, is, plain, function, column] using called
  | _ => simp [is, Expr.startsCall] at starts

end Operands

end ExprStep

end SelectRouting
