import SelectRouting.Proofs.PlainItemPassage

/-!
# What the readers of the projection list pass

An item is passed as a call and a text, and of the text every name before a point is recorded
(`AnalysisStep.item_reads`). The items are separated by the commas outside of parentheses.
-/

namespace SelectRouting

namespace AnalysisStep
open Scan Step Cursor Analysis

variable {before after : Analysis}

section Items

/-- An expression begins an item only where no item ends. -/
theorem atTerminator_of_startsItem {cursor : Cursor} (starts : startsItem cursor.kind = true) :
    atTerminator cursor = false := by
  unfold atTerminator
  cases named : cursor.kind with
  | keyword word =>
    rw [named] at starts
    cases word <;> first | rfl | cases starts
  | symbol mark =>
    rw [named] at starts
    cases mark <;> first | rfl | cases starts
  | endOfInput =>
    rw [named] at starts
    cases starts
  | _ => rfl

/-- Where an expression goes on behind a call, it does not end. -/
theorem atTerminator_of_atItemEnd {cursor : Cursor} (goes : atItemEnd cursor = false) :
    atTerminator cursor = false := by
  unfold atItemEnd at goes
  split at goes
  · cases goes
  · cases goes
  · exact goes

/-- A star stands at a token, also one in quotes. -/
theorem star_moves {cursor : Cursor}
    (stands : (cursor.at? (.symbol .star) || Text.stripQuotes cursor.lexeme == "*") = true) :
    ∃ star, Projected.IsStar [star] ∧ Moves cursor [star] cursor.advance := by
  cases tokens : cursor.rest with
  | nil =>
    have current : cursor.current = Token.eof cursor.text.utf8ByteSize := by
      simp [Cursor.current, Cursor.peek, tokens]
    rw [Cursor.at?, Cursor.kind, Cursor.lexeme, current] at stands
    simp [Token.eof, TokenKind.sameShape, Text.stripQuotes] at stands
  | cons star rest =>
    have current : cursor.current = star := by
      simp [Cursor.current, Cursor.peek, tokens]
    refine ⟨star, ⟨star, rfl, ?_⟩, moves_advance tokens⟩
    rw [Bool.or_eq_true, at?_symbol, beq_iff_eq, Cursor.kind, Cursor.lexeme, current] at stands
    exact stands

theorem isCall_ne_nil {tokens : List Token} (call : Projected.IsCall tokens) : tokens ≠ [] := by
  obtain ⟨_, _, _, rfl, _⟩ := call
  simp

/-- A call of an aggregate function begins with a keyword before a parenthesis. -/
theorem aggregateAt?_some {cursor : Cursor} {function : AggregateFunction}
    (found : aggregateAt? cursor = some function) :
    ∃ word, cursor.kind = .keyword word ∧ AggregateFunction.ofKeyword? word = some function ∧
      (cursor.peek 1).kind.sameShape (.symbol .leftParen) = true := by
  unfold aggregateAt? at found
  split at found
  · next opens =>
    obtain ⟨word, isWord, isFunction⟩ := Option.bind_eq_some_iff.mp found
    refine ⟨word, ?_, isFunction, opens⟩
    cases named : cursor.kind <;> simp_all [TokenKind.keyword?]
  · cases found

/-- Behind the name of a call stands the group of its arguments, which is quoted. -/
theorem group_of_call {function : AggregateFunction} {text : String} {cursor last : Cursor}
    (found : aggregateAt? cursor = some function)
    (grouped : Yields group cursor.advance text last) :
    ∃ word token group, token.kind = .keyword word ∧
      AggregateFunction.ofKeyword? word = some function ∧ Moves cursor [token] cursor.advance ∧
      Token.IsGroup group ∧ Moves cursor.advance group last ∧
      text = cursor.source (Token.cover group) := by
  obtain ⟨word, stands, isFunction, opens⟩ := aggregateAt?_some found
  obtain ⟨token, is, _, first⟩ := passes_advance stands (by simp) (by simp)
  have behind : cursor.advance.at? (.symbol .leftParen) = true := by
    rw [Cursor.at?, ← opens]
    simp [Cursor.kind, Cursor.current, Cursor.peek, first.text, first.rest]
  rcases group_cases grouped with ⟨noGroup, _⟩ | ⟨group, closing, second, rfl⟩
  · exact absurd (at?_symbol.mp behind) noGroup
  · refine ⟨word, token, group, is, isFunction, first.toMoves, closing, second.toMoves, ?_⟩
    rw [Cursor.source, first.text, Cursor.source]

/-- Where a call of an aggregate function begins, its name is passed and then its group. -/
theorem call_moves {function : AggregateFunction} {text : String} {cursor last : Cursor}
    (found : aggregateAt? cursor = some function)
    (grouped : Yields group cursor.advance text last) :
    ∃ tokens, Projected.IsCall tokens ∧ Moves cursor tokens last := by
  obtain ⟨word, token, group, is, isFunction, first, closing, second, _⟩ :=
    group_of_call found grouped
  exact ⟨token :: group, ⟨token, group, word, rfl, is, by simp [isFunction], closing⟩,
    first.trans second⟩

/-- The item that is read from `before` on, and how. -/
inductive ItemReads (dialect : Dialect) (position : Nat) (before : Analysis) :
    Item → Analysis → Prop where
  | star {aliasGiven : Option String} {after : Analysis} :
      (before.cursor.at? (.symbol .star) || Text.stripQuotes before.cursor.lexeme == "*") = true →
        Yields (liftM aliasName : AnalysisStep (Option String))
          { before with cursor := before.cursor.advance } aliasGiven after →
        ItemReads dialect position before (.star aliasGiven) after
  | call {function : AggregateFunction} {argument : String} {behind : Cursor}
      {aliasGiven : Option String} {after : Analysis} :
      (before.cursor.at? (.symbol .star) || Text.stripQuotes before.cursor.lexeme == "*") = false →
        aggregateAt? before.cursor = some function →
        Yields group before.cursor.advance argument behind → atItemEnd behind = true →
        Yields (liftM aliasName : AnalysisStep (Option String)) { before with cursor := behind }
          aliasGiven after →
        ItemReads dialect position before
          (.aggregation { function, argument, aliasName := aliasGiven, position }) after
  | callInText {function : AggregateFunction} {argument : String} {behind : Cursor} {answer : Item}
      {after : Analysis} :
      (before.cursor.at? (.symbol .star) || Text.stripQuotes before.cursor.lexeme == "*") = false →
        aggregateAt? before.cursor = some function →
        Yields group before.cursor.advance argument behind → atItemEnd behind = false →
        Yields (plainItem before.cursor.start true) { before with cursor := behind } answer after →
        ItemReads dialect position before answer after
  | text {answer : Item} {after : Analysis} :
      (before.cursor.at? (.symbol .star) || Text.stripQuotes before.cursor.lexeme == "*") = false →
        aggregateAt? before.cursor = none → startsItem before.cursor.kind = true →
        Yields (plainItem before.cursor.start false) before answer after →
        ItemReads dialect position before answer after

/-- An item is a star, a call, or an expression, which may begin with a call. -/
theorem yields_item {dialect : Dialect} (noWord : dialect.itemWord = none) {position : Nat}
    {answer : Item} : Yields (item dialect position) before answer after ↔
      ItemReads dialect position before answer after := by
  unfold item
  rw [noWord]
  dsimp only
  constructor
  · intro answers
    obtain ⟨starred, between, skipped, rest⟩ := yields_bind.mp answers
    obtain ⟨cursor, scanned, rfl⟩ := yields_scan.mp skipped
    rcases yields_skipWhen.mp scanned with ⟨stands, rfl, rfl⟩ | ⟨noStar, rfl, rfl⟩
    · rw [if_pos rfl] at rest
      obtain ⟨given, last, aliased, rest⟩ := yields_bind.mp rest
      obtain ⟨rfl, rfl⟩ := yields_pure.mp rest
      exact .star stands aliased
    · rw [if_neg Bool.false_ne_true, Step.yields_look_bind] at rest
      dsimp only [id_eq, cursor_analysis] at rest
      split at rest
      · next function found =>
        rw [Step.yields_advance_bind] at rest
        obtain ⟨argument, last, grouped, rest⟩ := yields_bind.mp rest
        obtain ⟨behind, scanned, rfl⟩ := yields_scan.mp grouped
        rw [Step.yields_look_bind, yields_ite] at rest
        rcases rest with ⟨ends, rest⟩ | ⟨goes, rest⟩
        · obtain ⟨given, last, aliased, rest⟩ := yields_bind.mp rest
          obtain ⟨rfl, rfl⟩ := yields_pure.mp rest
          exact .call noStar found scanned ends aliased
        · exact .callInText noStar found scanned (by simpa using goes) rest
      · next noCall =>
        rcases yields_ite.mp rest with ⟨starts, rest⟩ | ⟨_, failed⟩
        · exact .text noStar noCall starts rest
        · exact absurd failed Step.not_yields_fail
  · intro reads
    cases reads with
    | star stands aliased =>
      refine yields_bind.mpr ⟨true, _,
        yields_scan.mpr ⟨_, yields_skipWhen.mpr (.inl ⟨stands, rfl, rfl⟩), rfl⟩, ?_⟩
      exact yields_bind.mpr ⟨_, _, aliased, yields_pure.mpr ⟨rfl, rfl⟩⟩
    | call noStar found grouped ends aliased =>
      refine yields_bind.mpr ⟨false, _,
        yields_scan.mpr ⟨_, yields_skipWhen.mpr (.inr ⟨noStar, rfl, rfl⟩), rfl⟩, ?_⟩
      rw [if_neg Bool.false_ne_true, Step.yields_look_bind]
      dsimp only [id_eq, cursor_analysis]
      rw [found]
      refine Step.yields_advance_bind.mpr
        (yields_bind.mpr ⟨_, _, yields_scan.mpr ⟨_, grouped, rfl⟩, ?_⟩)
      rw [Step.yields_look_bind, yields_ite]
      exact .inl ⟨ends, yields_bind.mpr ⟨_, _, aliased, yields_pure.mpr ⟨rfl, rfl⟩⟩⟩
    | callInText noStar found grouped goes plain =>
      refine yields_bind.mpr ⟨false, _,
        yields_scan.mpr ⟨_, yields_skipWhen.mpr (.inr ⟨noStar, rfl, rfl⟩), rfl⟩, ?_⟩
      rw [if_neg Bool.false_ne_true, Step.yields_look_bind]
      dsimp only [id_eq, cursor_analysis]
      rw [found]
      refine Step.yields_advance_bind.mpr
        (yields_bind.mpr ⟨_, _, yields_scan.mpr ⟨_, grouped, rfl⟩, ?_⟩)
      rw [Step.yields_look_bind, yields_ite]
      exact .inr ⟨Bool.eq_false_iff.mp goes, plain⟩
    | text noStar noCall starts plain =>
      refine yields_bind.mpr ⟨false, _,
        yields_scan.mpr ⟨_, yields_skipWhen.mpr (.inr ⟨noStar, rfl, rfl⟩), rfl⟩, ?_⟩
      rw [if_neg Bool.false_ne_true, Step.yields_look_bind]
      dsimp only [id_eq, cursor_analysis]
      rw [noCall]
      exact yields_ite.mpr (.inl ⟨starts, plain⟩)

/-- An item is passed, and the names before points in its text are recorded. -/
theorem item_reads {dialect : Dialect} (noWord : dialect.itemWord = none) {position : Nat}
    {answer : Item} (answers : Yields (item dialect position) before answer after) :
    ∃ projected : Projected, projected.comma = [] ∧ projected.Fits after.cursor.rest ∧
      projected.Guarded ∧ projected.Tells before.cursor.text answer ∧
      Reads before projected.tokens (Token.owners projected.text) [] after := by
  cases (yields_item noWord).mp answers with
  | star stands aliased =>
    obtain ⟨star, isStar, moves⟩ := star_moves stands
    obtain ⟨named, rfl, are, reads⟩ := aliasName_reads aliased
    refine ⟨⟨[], [star], [], named⟩, rfl, ⟨.inr (.inl ⟨isStar, rfl⟩), .nil, by simp, ?_⟩,
      .of_call (by simp) rfl, ⟨_, .star isStar rfl⟩, ?_⟩
    · rw [kind_eq_frontKind] at are
      exact .inr are
    · simpa [Projected.tokens] using (Reads.move moves).trans reads
  | call _ found grouped _ aliased =>
    obtain ⟨word, token, group, is, isFunction, first, closing, second, rfl⟩ :=
      group_of_call found grouped
    obtain ⟨named, rfl, are, reads⟩ := aliasName_reads aliased
    have isCall : Projected.IsCall (token :: group) :=
      ⟨token, group, word, rfl, is, by simp [isFunction], closing⟩
    refine ⟨⟨[], token :: group, [], named⟩, rfl, ⟨.inr (.inr isCall), .nil, by simp, ?_⟩,
      .of_call (by simp) rfl, ⟨_, .call rfl rfl is isFunction closing rfl rfl⟩, ?_⟩
    · rw [kind_eq_frontKind] at are
      exact .inr are
    · simpa [Projected.tokens] using (Reads.move (first.trans second)).trans reads
  | callInText _ found grouped goes plain =>
    obtain ⟨call, isCall, moves⟩ := call_moves found grouped
    obtain ⟨text, named, balanced, are, some, passed, given, reads⟩ := plainItem_reads plain
    have begins : ∀ token ∈ (call ++ text).head?, token.start = before.cursor.start := by
      have whole := moves.trans reads.moves
      rw [← List.append_assoc] at whole
      exact whole.start_head?
    refine ⟨⟨[], call, text, named⟩, rfl,
      ⟨.inr (.inr isCall), balanced, by simp [isCall_ne_nil isCall], ?_⟩,
      ⟨passed, fun none => absurd none (isCall_ne_nil isCall)⟩, ?_, ?_⟩
    · rwa [kind_eq_frontKind] at are
    · rw [← moves.text]
      exact given.gives (some (atTerminator_of_atItemEnd goes)) (fun _ => goes) begins
    · simpa [Projected.tokens] using (Reads.move moves).trans reads
  | text _ _ starts plain =>
    obtain ⟨text, named, balanced, are, some, passed, given, reads⟩ := plainItem_reads plain
    have inside := some (atTerminator_of_startsItem starts)
    refine ⟨⟨[], [], text, named⟩, rfl, ⟨.inl rfl, balanced, by simpa using inside, ?_⟩,
      ⟨passed, fun _ => ?_⟩,
      given.gives inside (fun called => absurd called (by simp)) reads.moves.start_head?,
      by simpa [Projected.tokens] using reads⟩
    · rwa [kind_eq_frontKind] at are
    · rw [← Token.frontKind_append inside named, reads.moves.frontKind (by simp [inside])]
      exact starts

/-- A round reads an item and adds it to the list, and passes the comma behind it. -/
theorem yields_itemRound {dialect : Dialect} {position : Nat} {round : Round Nat Unit} :
    Yields (itemRound dialect position) before round after ↔
      ∃ value between, Yields (item dialect position) before value between ∧
        ((between.cursor.kind ≠ .symbol .comma ∧ round = .done () ∧ after = between.add value) ∨
          (between.cursor.kind = .symbol .comma ∧ round = .next (position + 1) ∧
            after = { between.add value with cursor := between.cursor.advance })) := by
  have added (value : Item) (between : Analysis) : Yields (do
      change fun statement =>
        { statement with
          items := statement.items ++ [value]
          containsStar := statement.containsStar || value.isStar }
      return if ← skipSymbol .comma then .next (position + 1) else .done () :
        AnalysisStep (Round Nat Unit)) between round after ↔
      (between.cursor.kind ≠ .symbol .comma ∧ round = .done () ∧ after = between.add value) ∨
        (between.cursor.kind = .symbol .comma ∧ round = .next (position + 1) ∧
          after = { between.add value with cursor := between.cursor.advance }) := by
    constructor
    · intro answers
      obtain ⟨_, _, changed, rest⟩ := yields_bind.mp answers
      obtain rfl := yields_change.mp changed
      obtain ⟨found, _, skipped, rest⟩ := yields_bind.mp rest
      obtain ⟨rfl, rfl⟩ := yields_pure.mp rest
      obtain ⟨cursor, scanned, rfl⟩ := yields_scan.mp skipped
      rcases yields_skipWhen.mp scanned with ⟨stands, rfl, rfl⟩ | ⟨elsewhere, rfl, rfl⟩
      · exact .inr ⟨at?_symbol.mp stands, rfl, rfl⟩
      · exact .inl ⟨mt at?_symbol.mpr (Bool.eq_false_iff.mp elsewhere), rfl, rfl⟩
    · intro outcome
      refine yields_bind.mpr ⟨(), _, yields_change.mpr rfl, yields_bind.mpr ?_⟩
      rcases outcome with ⟨elsewhere, rfl, rfl⟩ | ⟨stands, rfl, rfl⟩
      · exact ⟨false, _, yields_scan.mpr ⟨_, yields_skipWhen.mpr
          (.inr ⟨Bool.eq_false_iff.mpr (mt at?_symbol.mp elsewhere), rfl, rfl⟩), rfl⟩,
          yields_pure.mpr ⟨rfl, rfl⟩⟩
      · exact ⟨true, _, yields_scan.mpr ⟨_, yields_skipWhen.mpr
          (.inl ⟨at?_symbol.mpr stands, rfl, rfl⟩), rfl⟩, yields_pure.mpr ⟨rfl, rfl⟩⟩
  unfold itemRound
  rw [yields_bind]
  simp only [added]

end Items

end AnalysisStep

end SelectRouting
