import SelectRouting.Proofs.ClausePassage

/-!
# What the reader of a plain item passes

Of the text of an item that is no call every name before a point is recorded, and the text ends at the
first token outside of parentheses that ends an item (`AnalysisStep.plainItem_reads`). What is answered
for it is the text of its tokens, without the alias at its end (`Projected.Gives`).
-/

namespace SelectRouting

/-- The offset at which the last of the tokens ends, or `stop` when there is none. -/
def Token.stopOf (stop : Nat) (tokens : List Token) : Nat :=
  (tokens.getLast?.map fun token => token.span.stop).getD stop

@[simp] theorem Token.stopOf_nil (stop : Nat) : stopOf stop [] = stop := rfl

theorem Token.stopOf_cons (stop : Nat) (token : Token) (tokens : List Token) :
    stopOf stop (token :: tokens) = stopOf token.span.stop tokens := by
  cases tokens with
  | nil => rfl
  | cons next tokens =>
    rw [stopOf, stopOf, List.getLast?_cons_of_ne_nil (List.cons_ne_nil _ _)]
    obtain ⟨last, is⟩ := Option.isSome_iff_exists.mp
      (List.getLast?_isSome.mpr (List.cons_ne_nil next tokens))
    rw [is]
    rfl

/-- Tokens cover the text from where the first of them begins to where the last one ends. -/
theorem Token.cover_append {first second : List Token} (some : second ≠ []) {start stop : Nat}
    (begins : ∀ token ∈ (first ++ second).head?, token.start = start) :
    cover (first ++ second) = ⟨start, stopOf stop second⟩ := by
  obtain ⟨last, is⟩ := Option.isSome_iff_exists.mp (List.getLast?_isSome.mpr some)
  obtain ⟨token, tokens, are⟩ :=
    List.exists_cons_of_ne_nil (List.append_ne_nil_of_right_ne_nil first some)
  rw [cover, List.getLast?_append, is, stopOf, is, are, List.head?_cons]
  exact congrArg (Span.mk · _) (begins token (by rw [are, List.head?_cons]; rfl))

/-- The item is read from the tokens of `projected`, and `tokens` are those of its expression: all of
them but its alias. -/
inductive Projected.Gives (text : String) (projected : Projected) : List Token → Item → Prop where
  | star : IsStar projected.call → projected.text = [] →
      Gives text projected projected.call (.star (Token.aliasIn projected.named))
  | call {call : Aggregation} {function : Token} {group : List Token} {word : Keyword} :
      projected.call = function :: group → projected.text = [] → function.kind = .keyword word →
        AggregateFunction.ofKeyword? word = some call.function → Token.IsGroup group →
        call.argument = (Token.cover group).slice text →
        call.aliasName = Token.aliasIn projected.named →
        Gives text projected projected.call (.aggregation call)
  | plain {tokens : List Token} : tokens ≠ [] → projected.call ++ projected.text = tokens →
      Gives text projected tokens
        (.plain (Text.stripQuotes ((Token.cover tokens).slice text)) (Token.aliasIn projected.named))
  | aliased {tokens : List Token} {token : Token} : tokens ≠ [] → projected.named = [] →
      projected.call ++ projected.text = tokens ++ [token] →
      Gives text projected tokens
        (.plain (Text.stripQuotes ((Token.cover tokens).slice text))
          (some (Text.stripQuotes token.lexeme)))

/-- The item is read from the tokens of `projected`. -/
def Projected.Tells (text : String) (projected : Projected) (item : Item) : Prop :=
  ∃ tokens, projected.Gives text tokens item

/-- The comma before an item is not a part of it. -/
theorem Projected.Tells.withComma {text : String} {projected : Projected} {item : Item}
    (tells : projected.Tells text item) (comma : List Token) :
    Projected.Tells text { projected with comma } item := by
  obtain ⟨_, gives⟩ := tells
  cases gives with
  | star isStar none => exact ⟨_, .star isStar none⟩
  | call is none function aggregate group argument named =>
    exact ⟨_, .call is none function aggregate group argument named⟩
  | plain some are => exact ⟨_, .plain some are⟩
  | aliased some unnamed are => exact ⟨_, .aliased some unnamed are⟩

/-- The analysis behind the current token, which is recorded if it is a name before a point. -/
def Analysis.behind (state : Analysis) : Analysis where
  cursor :=
    if state.cursor.kind = .symbol .question then state.cursor.countParameter.advance
    else state.cursor.advance
  statement :=
    { state.statement with
      edits := state.statement.edits ++
        (Token.ownerBefore state.cursor.rest.tail state.cursor.current).map Token.edit }
  warnings := state.warnings

/-- The analysis with the item at the end of its projection list. -/
def Analysis.add (state : Analysis) (item : Item) : Analysis :=
  { state with
    statement :=
      { state.statement with
        items := state.statement.items ++ [item]
        containsStar := state.statement.containsStar || item.isStar } }

namespace AnalysisStep
open Scan Step Cursor Analysis

variable {before after : Analysis}

section PlainItem

/-- No word stands that ends an item. -/
theorem noWord_of_atTerminator {cursor : Cursor} (goes : atTerminator cursor = false) :
    ∀ word ∈ closingKeywords, cursor.current.kind ≠ .keyword word := by
  intro word member is
  rw [atTerminator, show cursor.kind = _ from is] at goes
  simp [member] at goes

/-- What a token makes of `depth` open parentheses in an item. -/
inductive Deepens : (depth : Nat) → Token → Nat → Prop where
  | opens {depth : Nat} {token : Token} : token.kind = .symbol .leftParen →
      Deepens depth token (depth + 1)
  | closes {depth : Nat} {token : Token} : token.kind = .symbol .rightParen →
      Deepens (depth + 1) token depth
  | other {depth : Nat} {token : Token} : token.kind ≠ .symbol .leftParen →
      token.kind ≠ .symbol .rightParen → Deepens depth token depth

theorem Deepens.level {depth following : Nat} {token : Token} {tokens : List Token}
    (deepens : Deepens depth token following) (noComma : depth = 0 → token.kind ≠ .symbol .comma)
    (rest : Token.Level following tokens) : Token.Level depth (token :: tokens) := by
  cases deepens with
  | opens opening => exact .opens opening rest
  | closes closing => exact .closes closing rest
  | other noOpening noClosing => exact .other noOpening noClosing noComma rest

theorem Deepens.deepen? {depth following : Nat} {token : Token}
    (deepens : Deepens depth token following) : Token.deepen? depth token = some following := by
  cases deepens with
  | opens opening => exact Token.deepen?_of_opening opening
  | closes closing => exact Token.deepen?_of_closing closing
  | other noOpening noClosing => exact Token.deepen?_of_other noOpening noClosing

/-- An item goes on with the token where a token of the kind `next` stands behind it: it is not the
end of the text, and no subquery begins. -/
structure Admits (depth : Nat) (token : Token) (next : TokenKind) (following : Nat) : Prop where
  deepens : Deepens depth token following
  noSubquery : token.kind = .symbol .leftParen → next ≠ .keyword .SELECT
  noExists : token.kind ≠ .keyword .EXISTS
  inside : token.kind ≠ .endOfInput

/-- An item goes on with a symbol, whichever other word stands behind it. -/
theorem Admits.of_symbol {depth following : Nat} {token : Token} {mark : Symbol} {next : TokenKind}
    (is : token.kind = .symbol mark) (deepens : Deepens depth token following)
    (noSubquery : mark = .leftParen → next ≠ .keyword .SELECT) :
    Admits depth token next following where
  deepens := deepens
  noSubquery opening := noSubquery (TokenKind.symbol.inj (is.symm.trans opening))
  noExists := by simp [is]
  inside := by simp [is]

/-- The depth behind a token is answered without a move. -/
theorem yields_depthBehind {depth following : Nat} {before after : Cursor} :
    Yields (depthBehind depth) before following after ↔
      Admits depth before.current (Token.frontKind before.rest.tail) following ∧ after = before := by
  unfold depthBehind
  constructor
  · intro answers
    obtain ⟨cursor, _, got, rest⟩ := yields_bind.mp answers
    cases got
    split at rest
    · next opening =>
      rcases yields_ite.mp rest with ⟨_, failed⟩ | ⟨noSubquery, rest⟩
      · exact absurd failed not_yields_throw_bind
      · obtain ⟨rfl, rfl⟩ := yields_pure.mp rest
        exact ⟨.of_symbol opening (.opens opening) fun _ select => noSubquery (opensSubquery_iff.mpr select),
          rfl⟩
    · next closing =>
      rcases yields_ite.mp rest with ⟨_, failed⟩ | ⟨some, rest⟩
      · obtain ⟨_, _, failed, _⟩ := yields_bind.mp failed
        exact absurd failed Scan.not_yields_fail
      · obtain ⟨rfl, rfl⟩ := yields_pure.mp rest
        cases depth with
        | zero => exact absurd rfl some
        | succ depth =>
          exact ⟨.of_symbol closing (.closes closing) nofun, rfl⟩
    · exact absurd rest not_yields_throw
    · exact absurd rest Scan.not_yields_fail
    · next noOpening noClosing noExists inside =>
      obtain ⟨rfl, rfl⟩ := yields_pure.mp rest
      exact ⟨⟨.other noOpening noClosing, fun opening => absurd opening noOpening, noExists, inside⟩,
        rfl⟩
  · rintro ⟨⟨deepens, noSubquery, noExists, inside⟩, rfl⟩
    refine yields_bind.mpr ⟨after, after, rfl, ?_⟩
    cases deepens with
    | opens opening =>
      rw [show after.kind = _ from opening]
      exact yields_ite.mpr (.inr ⟨fun select => noSubquery opening (opensSubquery_iff.mp select),
        yields_pure.mpr ⟨rfl, rfl⟩⟩)
    | closes closing =>
      rw [show after.kind = _ from closing]
      exact yields_pure.mpr ⟨rfl, rfl⟩
    | other noOpening noClosing =>
      split
      · next opening => exact absurd opening noOpening
      · next closing => exact absurd closing noClosing
      · next isExists => exact absurd isExists noExists
      · next ended => exact absurd ended inside
      · exact yields_pure.mpr ⟨rfl, rfl⟩

/-- The item has the depth that it is given. -/
theorem pass_depth (item : PlainItem) (token : Token) (depth : Nat) :
    (item.pass token depth).depth = depth := by
  unfold PlainItem.pass
  split <;> rfl

/-- A name before a point is recorded. -/
theorem yields_recordOwner {κ : Type} {token : Token} {value answer : κ} :
    Yields (do
      match token.kind with
      | .identifier _ =>
        if ← look (·.at? (.symbol .dot)) then addEdit (.tableName token.start token.lexeme)
      | _ => pure ()
      return value : AnalysisStep κ) before answer after ↔
    answer = value ∧ after = { before with statement := { before.statement with
      edits := before.statement.edits ++
        (Token.ownerBefore before.cursor.rest token).map Token.edit } } := by
  have point : before.cursor.at? (.symbol .dot) = true ↔
      Token.frontKind before.cursor.rest = .symbol .dot := by
    rw [at?_symbol, kind_eq_frontKind]
  split
  · next written named =>
    rw [Step.yields_look_bind, yields_ite, cursor_analysis]
    by_cases stands : Token.frontKind before.cursor.rest = .symbol .dot
    · have owner : Token.ownerBefore before.cursor.rest token = [token] := by
        simp [Token.ownerBefore, named, TokenKind.isIdentifier, stands]
      rw [owner]
      constructor
      · rintro (⟨_, answers⟩ | ⟨noPoint, _⟩)
        · obtain ⟨_, _, added, rest⟩ := yields_bind.mp answers
          obtain rfl := yields_change.mp added
          exact yields_pure.mp rest
        · exact absurd (point.mpr stands) noPoint
      · rintro ⟨rfl, rfl⟩
        exact .inl ⟨point.mpr stands,
          yields_bind.mpr ⟨(), _, yields_change.mpr rfl, yields_pure.mpr ⟨rfl, rfl⟩⟩⟩
    · rw [Token.ownerBefore_of_front stands, List.map_nil, List.append_nil]
      constructor
      · rintro (⟨pointed, _⟩ | ⟨_, answers⟩)
        · exact absurd (point.mp pointed) stands
        · exact yields_pure.mp answers
      · rintro ⟨rfl, rfl⟩
        exact .inr ⟨fun pointed => stands (point.mp pointed), yields_pure.mpr ⟨rfl, rfl⟩⟩
  · next noName =>
    have unnamed : token.kind.isIdentifier = false := by
      unfold TokenKind.isIdentifier
      split
      · next written named => exact absurd named (noName written)
      · rfl
    have none : Token.ownerBefore before.cursor.rest token = [] := by
      simp [Token.ownerBefore, unnamed]
    rw [none, List.map_nil, List.append_nil]
    exact yields_pure

/-- An item ends where it may, outside of parentheses; otherwise the current token is passed. -/
theorem yields_plainItemRound {item : PlainItem} {answer : Round PlainItem PlainItem} :
    Yields (plainItemRound item) before answer after ↔
      (item.depth = 0 ∧ atTerminator before.cursor = true ∧ answer = .done item ∧ after = before) ∨
        ((item.depth = 0 → atTerminator before.cursor = false) ∧
          ∃ depth, Admits item.depth before.cursor.current
              (Token.frontKind before.cursor.rest.tail) depth ∧
            answer = .next (item.pass before.cursor.current depth) ∧ after = before.behind) := by
  unfold plainItemRound
  rw [Step.yields_look_bind, yields_ite, Step.yields_look_bind]
  refine or_congr ?_ (and_congr ?_ ?_)
  · rw [Bool.and_eq_true, beq_iff_eq, and_assoc]
    exact and_congr_right fun _ => and_congr_right fun _ => yields_pure
  · rw [Bool.and_eq_true, beq_iff_eq, not_and, Bool.not_eq_true, cursor_analysis]
  · rw [yields_bind, cursor_analysis]
    have left : before.cursor.countParameter.advance.rest = before.cursor.rest.tail :=
      rest_advance before.cursor.countParameter
    constructor
    · rintro ⟨depth, _, deepened, answers⟩
      obtain ⟨_, scanned, rfl⟩ := yields_scan.mp deepened
      obtain ⟨admits, rfl⟩ := yields_depthBehind.mp scanned
      refine ⟨depth, admits, ?_⟩
      rcases yields_ite.mp answers with ⟨counted, answers⟩ | ⟨uncounted, answers⟩
      · obtain ⟨_, _, modified, answers⟩ := yields_bind.mp answers
        cases modified
        obtain ⟨rfl, rfl⟩ := yields_recordOwner.mp (Step.yields_advance_bind.mp answers)
        rw [Analysis.behind, if_pos (show before.cursor.kind = _ from beq_iff_eq.mp counted), ← left]
        exact ⟨rfl, rfl⟩
      · obtain ⟨rfl, rfl⟩ := yields_recordOwner.mp (Step.yields_advance_bind.mp answers)
        have other : before.cursor.kind ≠ .symbol .question := mt beq_iff_eq.mpr uncounted
        rw [Analysis.behind, if_neg other, ← rest_advance]
        exact ⟨rfl, rfl⟩
    · rintro ⟨depth, admits, rfl, rfl⟩
      refine ⟨depth, before, yields_scan.mpr ⟨_, yields_depthBehind.mpr ⟨admits, rfl⟩, rfl⟩, ?_⟩
      by_cases counted : before.cursor.kind = .symbol .question
      · rw [Analysis.behind, if_pos counted, ← left]
        exact yields_ite.mpr (.inl ⟨beq_iff_eq.mpr counted, yields_bind.mpr ⟨_, _, rfl,
          Step.yields_advance_bind.mpr (yields_recordOwner.mpr ⟨rfl, rfl⟩)⟩⟩)
      · rw [Analysis.behind, if_neg counted, ← rest_advance]
        exact yields_ite.mpr (.inr ⟨mt beq_iff_eq.mp counted,
          Step.yields_advance_bind.mpr (yields_recordOwner.mpr ⟨rfl, rfl⟩)⟩)

/-- The current token is passed. -/
theorem passes_behind (inside : before.cursor.kind ≠ .endOfInput) :
    Passes before.cursor [before.cursor.current] before.behind.cursor := by
  unfold Analysis.behind
  split
  · next counted =>
    obtain ⟨_, _, rfl, passes⟩ := passes_placeholder counted
    rwa [← advance_countParameter] at passes
  · next uncounted =>
    obtain ⟨_, _, rfl, passes⟩ := passes_advance rfl inside uncounted
    exact passes

/-- The current token is passed, and recorded when it is a name before a point. -/
theorem reads_behind (inside : before.cursor.kind ≠ .endOfInput) :
    Reads before [before.cursor.current]
      (Token.ownerBefore before.behind.cursor.rest before.cursor.current) [] before.behind := by
  have passes := passes_behind inside
  have rest : before.cursor.rest.tail = before.behind.cursor.rest := by
    rw [passes.rest]
    rfl
  refine ⟨passes.toMoves, ?_, (List.append_nil _).symm, rfl⟩
  rw [← rest]
  rfl

/-- An item is passed up to the token that ends it, outside of all parentheses. -/
theorem plainItemRounds_read {item last : PlainItem}
    (ran : Rounds plainItemRound item before last after) :
    ∃ tokens, Token.Level item.depth tokens ∧ atTerminator after.cursor = true ∧
      Reads before tokens (Token.owners tokens) [] after ∧
      (atTerminator before.cursor = false → tokens ≠ []) ∧
      Projected.PassedText item.depth tokens := by
  induction ran with
  | done answers =>
    rcases yields_plainItemRound.mp answers with ⟨outside, ends, _, rfl⟩ | ⟨_, _, _, next, _⟩
    · rw [outside]
      exact ⟨[], .nil, ends, .refl _, by simp [ends], .nil 0⟩
    · cases next
  | @next item _ before between after _ answers _ ih =>
    rcases yields_plainItemRound.mp answers with ⟨_, _, ended, _⟩ | ⟨inside, depth, admits, next, rfl⟩
    · cases ended
    · cases next
      obtain ⟨tokens, level, ends, more, _, passed⟩ := ih
      rw [pass_depth] at level passed
      have noComma : item.depth = 0 → before.cursor.current.kind ≠ .symbol .comma := by
        intro outside comma
        have goes := inside outside
        rw [← Cursor.kind] at comma
        simp [atTerminator, comma] at goes
      have noPoint : Token.frontKind after.cursor.rest ≠ .symbol .dot := by
        intro point
        rw [← kind_eq_frontKind] at point
        simp [atTerminator, point] at ends
      have here : item.depth = 0 → before.cursor.current.kind ≠ .symbol .semicolon := by
        intro outside semicolon
        have goes := inside outside
        rw [← Cursor.kind] at semicolon
        simp [atTerminator, semicolon] at goes
      refine ⟨before.cursor.current :: tokens, admits.deepens.level noComma level, ends, ?_, by simp,
        ⟨?_, fun token stands => ?_⟩, fun token stands => ?_,
        List.forall_mem_cons.mpr ⟨admits.noExists, passed.noExists⟩⟩
      · have both := (reads_behind admits.inside).trans more
        rw [more.moves.rest, Token.ownerBefore_append noPoint] at both
        exact both
      · rw [Token.subqueries, passed.subqueries, List.append_nil]
        by_cases opening : before.cursor.current.kind = .symbol .leftParen
        · refine Token.subqueryBefore_of_front (fun select => ?_) _
          have some : tokens ≠ [] := by
            rintro rfl
            cases select
          have tail : before.cursor.rest.tail = tokens ++ after.cursor.rest := by
            rw [← more.moves.rest, (passes_behind admits.inside).rest]
            rfl
          apply admits.noSubquery opening
          rw [tail, Token.frontKind_append some, select]
        · exact Token.subqueryBefore_of_kind opening _
      · rcases (Token.mem_outside_cons admits.deepens.deepen?).mp stands with ⟨outside, rfl⟩ | stands
        · exact noWord_of_atTerminator (inside outside)
        · exact passed.words token stands
      · rcases (Token.mem_outside_cons admits.deepens.deepen?).mp stands with ⟨outside, rfl⟩ | stands
        · exact here outside
        · exact passed.noSemicolon token stands

/-- The last token of an item is kept as its alias when it reads as one, and then the expression ends
before it. -/
structure PlainItem.Ends (item : PlainItem) (cursor : Cursor) (tokens : List Token)
    (last : PlainItem) : Prop where
  outside : last.depth = 0
  stop : last.stop = Token.stopOf item.stop tokens
  aliasName : ∀ token stop, last.aliasName = some (token, stop) →
    (tokens = [] ∧ last = item) ∨ ∃ front, tokens = front ++ [token] ∧
      stop = Token.stopOf item.stop front ∧
      (front = [] → item.afterValue = true ∧ atItemEnd cursor = true)

theorem plainItemRounds_end {item last : PlainItem}
    (ran : Rounds plainItemRound item before last after) :
    ∃ tokens, Moves before.cursor tokens after.cursor ∧ item.Ends before.cursor tokens last := by
  induction ran with
  | done answers =>
    rcases yields_plainItemRound.mp answers with ⟨outside, _, done, rfl⟩ | ⟨_, _, _, next, _⟩
    · cases done
      exact ⟨[], .refl _, outside, rfl, fun _ _ _ => .inl ⟨rfl, rfl⟩⟩
    · cases next
  | @next item _ before between after _ answers _ ih =>
    rcases yields_plainItemRound.mp answers with ⟨_, _, ended, _⟩ | ⟨inside, depth, admits, next, rfl⟩
    · cases ended
    · cases next
      obtain ⟨tokens, moves, ends⟩ := ih
      have stop : (item.pass before.cursor.current depth).stop = before.cursor.current.span.stop := by
        unfold PlainItem.pass
        split <;> rfl
      refine ⟨before.cursor.current :: tokens, (passes_behind admits.inside).toMoves.trans moves,
        ends.outside, ?_, fun token last given => .inr ?_⟩
      · rw [ends.stop, stop, Token.stopOf_cons]
      · rcases ends.aliasName token last given with ⟨rfl, rfl⟩ | ⟨front, rfl, ended, _⟩
        · -- the current token is the last one, and reads as an alias
          obtain rfl : depth = 0 := (pass_depth ..).symm.trans ends.outside
          unfold PlainItem.pass at given
          rw [if_pos (by rfl)] at given
          have standsLast (named : atItemEnd before.cursor = true)
              (own : (if item.afterValue = true then some (before.cursor.current, item.stop)
                else none) = some (token, last)) :
              ∃ front, [before.cursor.current] = front ++ [token] ∧
                last = Token.stopOf item.stop front ∧
                (front = [] → item.afterValue = true ∧ atItemEnd before.cursor = true) := by
            split at own
            · next value =>
              cases own
              exact ⟨[], rfl, rfl, fun _ => ⟨value, named⟩⟩
            · cases own
          dsimp only at given
          split at given
          · next named => exact standsLast (by simp [atItemEnd, Cursor.kind, named]) given
          · next named => exact standsLast (by simp [atItemEnd, Cursor.kind, named]) given
          · cases given
        · refine ⟨before.cursor.current :: front, rfl, ?_, by simp⟩
          rw [ended, stop, Token.stopOf_cons]

theorem plainItemRound_shrinks {item following : PlainItem}
    (answers : Yields (plainItemRound item) before (.next following) after) :
    after.cursor.rest.length < before.cursor.rest.length := by
  rcases yields_plainItemRound.mp answers with ⟨_, _, ended, _⟩ | ⟨_, _, admits, _, rfl⟩
  · cases ended
  · rw [(passes_behind admits.inside).rest]
    simp

/-- An expression is passed up to where it ends. Its alias is the last token that reads as one, or
else the alias that stands behind it. -/
theorem yields_plainItem {start : Nat} {afterValue : Bool} {answer : Item} :
    Yields (plainItem start afterValue) before answer after ↔
      ∃ (item : PlainItem) (between : Analysis) (stop : Nat) (aliasGiven : Option String),
        Rounds plainItemRound { stop := max before.cursor.previous.stop start, afterValue } before
          item between ∧ start < stop ∧
        answer = .plain (Text.stripQuotes (after.cursor.source ⟨start, stop⟩)) aliasGiven ∧
        ((∃ token, item.aliasName = some (token, stop) ∧ after = between ∧
            aliasGiven = some (Text.stripQuotes token.lexeme)) ∨
          (item.aliasName = none ∧ stop = item.stop ∧
            Yields (liftM aliasName : AnalysisStep (Option String)) between aliasGiven after)) := by
  unfold plainItem
  rw [Step.yields_look_bind]
  constructor
  · intro answers
    obtain ⟨item, between, ran, rest⟩ := yields_bind.mp answers
    refine ⟨item, between, ?_⟩
    split at rest
    · next token stop found =>
      rw [pure_bind] at rest
      simp only [yields_ite, not_yields_fail_bind, and_false, false_or] at rest
      obtain ⟨some, rest⟩ := rest
      rw [Step.yields_look_bind, yields_pure] at rest
      obtain ⟨rfl, rfl⟩ := rest
      exact ⟨stop, _, rounds_of_rounding ran, Nat.not_le.mp some, rfl, .inl ⟨token, found, rfl, rfl⟩⟩
    · next none =>
      obtain ⟨given, last, aliased, rest⟩ := yields_bind.mp rest
      rw [pure_bind] at rest
      simp only [yields_ite, not_yields_fail_bind, and_false, false_or] at rest
      obtain ⟨some, rest⟩ := rest
      rw [Step.yields_look_bind, yields_pure] at rest
      obtain ⟨rfl, rfl⟩ := rest
      exact ⟨_, _, rounds_of_rounding ran, Nat.not_le.mp some, rfl, .inr ⟨none, rfl, aliased⟩⟩
  · rintro ⟨item, between, stop, given, ran, some, rfl, named⟩
    refine yields_bind.mpr ⟨item, between, yields_rounding_of_rounds ran plainItemRound_shrinks, ?_⟩
    have noFailure : ¬ stop ≤ start := Nat.not_le.mpr some
    rcases named with ⟨token, found, rfl, rfl⟩ | ⟨none, rfl, aliased⟩
    · rw [found]
      exact yields_ite.mpr (.inr ⟨noFailure, Step.yields_look_bind.mpr (yields_pure.mpr ⟨rfl, rfl⟩)⟩)
    · rw [none]
      refine yields_bind.mpr ⟨given, after, aliased, yields_ite.mpr (.inr ⟨noFailure, ?_⟩)⟩
      exact Step.yields_look_bind.mpr (yields_pure.mpr ⟨rfl, rfl⟩)

/-- What is answered for an expression that begins at `start` and of which `text` is passed from the
cursor on: its alias is the last token, or else stands in `named`. -/
inductive PlainItem.Answers (cursor : Cursor) (start : Nat) (afterValue : Bool)
    (text named : List Token) : Item → Prop where
  | plain : Answers cursor start afterValue text named (.plain
      (Text.stripQuotes (cursor.source ⟨start, Token.stopOf (max cursor.previous.stop start) text⟩))
      (Token.aliasIn named))
  | aliased {front : List Token} {token : Token} : text = front ++ [token] → named = [] →
      (front = [] → afterValue = true ∧ atItemEnd cursor = true) →
      Answers cursor start afterValue text named (.plain
        (Text.stripQuotes (cursor.source ⟨start, Token.stopOf (max cursor.previous.stop start) front⟩))
        (some (Text.stripQuotes token.lexeme)))

/-- An item that is no star and no call is passed with its alias. -/
theorem plainItem_reads {start : Nat} {afterValue : Bool} {answer : Item}
    (answers : Yields (plainItem start afterValue) before answer after) :
    ∃ text named, Token.Balanced text ∧
      (named = [] ∨ AliasTokens named (Token.aliasIn named) after.cursor.kind) ∧
      (atTerminator before.cursor = false → text ≠ []) ∧ Projected.PassedText 0 text ∧
      PlainItem.Answers before.cursor start afterValue text named answer ∧
      Reads before (text ++ named) (Token.owners text) [] after := by
  obtain ⟨item, between, stop, given, ran, _, rfl, named⟩ := yields_plainItem.mp answers
  obtain ⟨text, level, ends, reads, some, passed⟩ := plainItemRounds_read ran
  obtain ⟨tokens, moves, last⟩ := plainItemRounds_end ran
  obtain rfl : tokens = text := List.append_cancel_right (moves.rest.symm.trans reads.moves.rest)
  rcases named with ⟨token, found, rfl, rfl⟩ | ⟨_, rfl, aliased⟩
  · refine ⟨tokens, [], level, .inl rfl, some, passed, ?_, by simpa using reads⟩
    rw [Cursor.source, moves.text, ← Cursor.source]
    rcases last.aliasName token stop found with ⟨_, rfl⟩ | ⟨front, is, rfl, first⟩
    · cases found
    · exact .aliased is rfl first
  · obtain ⟨named, rfl, are, more⟩ := aliasName_reads aliased
    have whole := reads.trans more
    refine ⟨tokens, named, level, .inr are, some, passed, ?_, by simpa using whole⟩
    rw [Cursor.source, whole.moves.text, ← Cursor.source, last.stop]
    exact .plain

/-- The expression is read from the tokens that are passed, where they begin with the expression. -/
theorem PlainItem.Answers.gives {cursor : Cursor} {start : Nat} {afterValue : Bool}
    {call text named : List Token} {item : Item}
    (answers : Answers cursor start afterValue text named item) (some : text ≠ [])
    (first : afterValue = true → atItemEnd cursor = false)
    (begins : ∀ token ∈ (call ++ text).head?, token.start = start) :
    Projected.Tells cursor.text ⟨[], call, text, named⟩ item := by
  cases answers with
  | plain =>
    have whole : call ++ text ≠ [] := List.append_ne_nil_of_right_ne_nil call some
    refine ⟨call ++ text, ?_⟩
    rw [Cursor.source, ← Token.cover_append some begins]
    exact .plain whole rfl
  | @aliased front token is unnamed atFirst =>
    have more : front ≠ [] := by
      intro none
      obtain ⟨value, ended⟩ := atFirst none
      rw [first value] at ended
      cases ended
    have whole : call ++ front ≠ [] := List.append_ne_nil_of_right_ne_nil call more
    have starts : ∀ token ∈ (call ++ front).head?, token.start = start := by
      intro other member
      apply begins
      rw [is, ← List.append_assoc, List.head?_append, member]
      rfl
    refine ⟨call ++ front, ?_⟩
    rw [Cursor.source, ← Token.cover_append more starts]
    exact .aliased whole unnamed (by simp [is])

end PlainItem

end AnalysisStep

end SelectRouting
