import SelectRouting.Proofs.QueryPassage

/-!
# The projection list in another text

What the readers of the projection list do is decided by its tokens and by one token behind them. So
in another text, which begins as this one does and goes on with a comma where the list ends
(`Graft`), the same items are read, and then others follow (`Graft.Pairs.itemRounds`).
-/

namespace SelectRouting

/-- Another text: up to `limit` the text `grown` is that of `text`. Behind the tokens that both begin
with stand the tokens `behind` in the one and the tokens `others`, from a comma on, in the other. -/
structure Graft where
  text : String
  grown : String
  limit : Nat
  behind : List Token
  others : List Token
  noPoint : Token.frontKind behind ≠ .symbol .dot
  comma : Token.frontKind others = .symbol .comma
  quotes : ∀ span : Span, span.stop ≤ limit → span.slice grown = span.slice text

/-- All that has been passed of the item ends before `limit`. -/
structure AnalysisStep.PlainItem.Within (limit : Nat) (item : PlainItem) : Prop where
  stop : item.stop ≤ limit
  aliasName : ∀ found ∈ item.aliasName, found.2 ≤ limit

theorem AnalysisStep.PlainItem.Within.pass {limit depth : Nat} {item : PlainItem} {token : Token}
    (within : item.Within limit) (fits : token.span.stop ≤ limit) :
    (item.pass token depth).Within limit := by
  unfold PlainItem.pass
  split
  · refine ⟨fits, ?_⟩
    dsimp only
    split
    · split
      · simpa using within.stop
      · simp
    · split
      · simpa using within.stop
      · simp
    · simp
  · exact ⟨fits, within.aliasName⟩

namespace Graft
open Step Cursor Analysis AnalysisStep Scan

variable {graft : Graft} {ahead left passed : List Token}

/-- The cursors stand before the tokens `ahead`, the one in the text, the other in the other text. -/
structure Joins (graft : Graft) (ahead : List Token) (cursor other : Cursor) : Prop where
  text : cursor.text = graft.text
  grown : other.text = graft.grown
  rest : cursor.rest = ahead ++ graft.behind
  others : other.rest = ahead ++ graft.others
  previous : other.previous = cursor.previous
  parameters : other.parameters = cursor.parameters
  stop : cursor.previous.stop ≤ graft.limit
  ahead : ∀ token ∈ ahead, token.kind ≠ .endOfInput ∧ token.span.stop ≤ graft.limit

section Joins
variable {cursor other after : Cursor} {token : Token}

theorem Joins.passes (joins : graft.Joins ahead cursor other) (passes : Passes cursor passed after)
    (stands : after.rest = left ++ graft.behind) :
    ahead = passed ++ left ∧ ∃ after', Passes other passed after' ∧ graft.Joins left after after' := by
  obtain rfl : ahead = passed ++ left := by
    have whole := joins.rest.symm.trans passes.rest
    rw [stands, ← List.append_assoc] at whole
    exact List.append_cancel_right whole
  have others := joins.others
  rw [List.append_assoc] at others
  obtain ⟨after', passes', rest⟩ := exists_passes others
  refine ⟨rfl, after', passes', passes.text.trans joins.text, passes'.text.trans joins.grown, stands,
    rest, ?_, ?_, ?_, fun token member => joins.ahead token (List.mem_append_right _ member)⟩
  · rw [passes'.previous, passes.previous, joins.previous]
  · rw [passes'.parameters, passes.parameters, joins.parameters]
  · rw [passes.previous]
    cases last : passed.getLast? with
    | none => exact joins.stop
    | some token =>
      exact (joins.ahead token (List.mem_append_left _ (List.mem_of_getLast? last))).2

theorem Joins.current (joins : graft.Joins (token :: ahead) cursor other) :
    cursor.current = token ∧ other.current = token :=
  ⟨current_of_cons joins.rest, current_of_cons joins.others⟩

theorem Joins.kind_eq (joins : graft.Joins ahead cursor other) (some : ahead ≠ []) :
    other.kind = cursor.kind := by
  obtain ⟨token, ahead, rfl⟩ := List.exists_cons_of_ne_nil some
  rw [Cursor.kind, Cursor.kind, joins.current.1, joins.current.2]

/-- At the end of the list the other cursor stands at a comma. -/
theorem Joins.kind_comma (joins : graft.Joins [] cursor other) : other.kind = .symbol .comma := by
  rw [kind_eq_frontKind, joins.others]
  exact graft.comma

theorem Joins.advance (joins : graft.Joins (token :: ahead) cursor other) :
    graft.Joins ahead cursor.advance other.advance := by
  have moves := moves_advance joins.rest
  have moves' := moves_advance joins.others
  refine ⟨moves.text.trans joins.text, moves'.text.trans joins.grown, ?_, ?_, ?_, ?_, ?_,
    fun other member => joins.ahead other (List.mem_cons_of_mem _ member)⟩
  · rw [rest_advance, joins.rest]
    rfl
  · rw [rest_advance, joins.others]
    rfl
  · rw [moves.previous, moves'.previous]
    rfl
  · rw [parameters_advance, parameters_advance, joins.parameters]
  · rw [moves.previous]
    exact (joins.ahead token List.mem_cons_self).2

/-- The token behind the current one is the same, or the comma stands there. -/
theorem Joins.frontKind_tail (joins : graft.Joins (token :: ahead) cursor other) :
    Token.frontKind other.rest.tail = Token.frontKind cursor.rest.tail ∨
      ahead = [] ∧ Token.frontKind other.rest.tail = .symbol .comma := by
  rw [joins.rest, joins.others]
  cases ahead with
  | nil => exact .inr ⟨rfl, graft.comma⟩
  | cons next ahead => exact .inl rfl

/-- A point stands behind the current token in both texts or in none. -/
theorem Joins.ownerBefore_tail (joins : graft.Joins (token :: ahead) cursor other) :
    Token.ownerBefore other.rest.tail other.current =
      Token.ownerBefore cursor.rest.tail cursor.current := by
  rw [joins.current.1, joins.current.2]
  rcases joins.frontKind_tail with same | ⟨rfl, comma⟩
  · rw [Token.ownerBefore, Token.ownerBefore, same]
  · have noPoint : Token.frontKind cursor.rest.tail ≠ .symbol .dot := by
      rw [joins.rest]
      exact graft.noPoint
    rw [Token.ownerBefore_of_front noPoint, Token.ownerBefore_of_front (by simp [comma])]

/-- Where an item ends, it also ends before the comma. -/
theorem Joins.atTerminator (joins : graft.Joins ahead cursor other)
    (ends : atTerminator cursor = true) : atTerminator other = true := by
  unfold AnalysisStep.atTerminator at *
  by_cases none : ahead = []
  · subst none
    rw [joins.kind_comma]
  · rwa [joins.kind_eq none]

theorem Joins.atItemEnd (joins : graft.Joins ahead cursor other) (ends : atItemEnd cursor = true) :
    atItemEnd other = true := by
  by_cases none : ahead = []
  · subst none
    simp [AnalysisStep.atItemEnd, AnalysisStep.atTerminator, joins.kind_comma]
  · unfold AnalysisStep.atItemEnd AnalysisStep.atTerminator at *
    rwa [joins.kind_eq none]

/-- A call begins in both texts or in none, unless the comma stands behind its name. -/
theorem Joins.aggregateAt? (joins : graft.Joins (token :: ahead) cursor other) :
    aggregateAt? other = aggregateAt? cursor ∨ ahead = [] ∧ aggregateAt? other = none := by
  unfold AnalysisStep.aggregateAt?
  rw [kind_peek_one, kind_peek_one, joins.kind_eq (by simp)]
  rcases joins.frontKind_tail with same | ⟨none, comma⟩
  · exact .inl (by rw [same])
  · exact .inr ⟨none, by rw [comma]; rfl⟩

/-- A group is passed and quoted in the other text as in this one. -/
theorem Joins.group {answer : String} (joins : graft.Joins ahead cursor other)
    (answers : Yields group cursor answer after) (stands : after.rest = left ++ graft.behind) :
    ∃ after', Yields Scan.group other answer after' ∧ graft.Joins left after after' := by
  rcases group_cases answers with ⟨noGroup, rfl, rfl⟩ | ⟨tokens, isGroup, passes, rfl⟩
  · obtain rfl : ahead = left := List.append_cancel_right (joins.rest.symm.trans stands)
    refine ⟨other, group_absent ?_, joins⟩
    by_cases none : ahead = []
    · subst none
      simp [joins.kind_comma]
    · rwa [joins.kind_eq none]
  · obtain ⟨rfl, after', passes', joins'⟩ := joins.passes passes stands
    have quoted : other.source (Token.cover tokens) = cursor.source (Token.cover tokens) := by
      rw [Cursor.source, Cursor.source, joins.grown, joins.text]
      refine graft.quotes _ ?_
      rw [passes.cover (Token.Closing.ne_nil isGroup)]
      exact joins'.stop
    rw [← quoted]
    exact ⟨after', group_answers isGroup passes' fun token member =>
      (joins.ahead token (List.mem_append_left _ member)).1, joins'⟩

theorem Joins.aliasName {answer : Option String} (joins : graft.Joins ahead cursor other)
    (answers : Yields aliasName cursor answer after) (stands : after.rest = left ++ graft.behind) :
    ∃ after', Yields Scan.aliasName other answer after' ∧ graft.Joins left after after' := by
  obtain ⟨tokens, are, passes⟩ := aliasName_cases answers
  obtain ⟨rfl, after', passes', joins'⟩ := joins.passes passes stands
  refine ⟨after', aliasName_answers ?_ passes', joins'⟩
  by_cases none : left = []
  · subst none
    rw [joins'.kind_comma]
    cases are with
    | absent => exact .absent (by simp) rfl
    | dangling named => exact .dangling named (.inl rfl)
    | introduced named noSymbol inside => exact .introduced named noSymbol inside
    | bare reads => exact .bare reads
  · rwa [joins'.kind_eq none]

/-- A keyword is passed in the other text as in this one, unless the list ends there. -/
theorem Joins.skipAnyKeyword {words : List Keyword} {found : Bool}
    (joins : graft.Joins ahead cursor other) (answers : Yields (skipAnyKeyword words) cursor found after)
    (stands : after.rest = left ++ graft.behind) (some : left ≠ []) :
    ∃ after', Yields (Scan.skipAnyKeyword words) other found after' ∧
      graft.Joins left after after' := by
  have agree (some : ahead ≠ []) : other.atKeyword? words = cursor.atKeyword? words := by
    rw [atKeyword?, atKeyword?, joins.kind_eq some]
  rcases yields_skipWhen.mp answers with ⟨found, rfl, rfl⟩ | ⟨elsewhere, rfl, rfl⟩
  · obtain ⟨word, _, named⟩ := atKeyword?_iff.mp found
    obtain ⟨token, _, _, passes⟩ := passes_advance named (by simp) (by simp)
    obtain ⟨rfl, _⟩ := joins.passes passes stands
    exact ⟨_, yields_skipWhen.mpr (.inl ⟨(agree (by simp)).trans found, rfl, rfl⟩), joins.advance⟩
  · obtain rfl : ahead = left := List.append_cancel_right (joins.rest.symm.trans stands)
    exact ⟨other, yields_skipWhen.mpr (.inr ⟨(agree some).trans elsewhere, rfl, rfl⟩), joins⟩

end Joins

/-- The analyses have found the same before the tokens `ahead` in the two texts. -/
structure Pairs (graft : Graft) (ahead : List Token) (state other : Analysis) : Prop where
  cursor : graft.Joins ahead state.cursor other.cursor
  statement : other.statement = state.statement

section Pairs
variable {before after other : Analysis}

/-- A scan runs in the other text as it does in this one. -/
theorem Pairs.scan {α : Type} {scan : Scan α} {answer : α} (pairs : graft.Pairs ahead before other)
    (answers : Yields (liftM scan : AnalysisStep α) before answer after)
    (joined : ∀ {cursor : Cursor}, Yields scan before.cursor answer cursor →
      cursor.rest = left ++ graft.behind →
      ∃ cursor', Yields scan other.cursor answer cursor' ∧ graft.Joins left cursor cursor')
    (stands : after.cursor.rest = left ++ graft.behind) :
    ∃ after', Yields (liftM scan : AnalysisStep α) other answer after' ∧
      graft.Pairs left after after' := by
  obtain ⟨cursor, scanned, rfl⟩ := yields_scan.mp answers
  obtain ⟨cursor', scanned', joins⟩ := joined scanned stands
  exact ⟨_, yields_scan.mpr ⟨cursor', scanned', rfl⟩, joins, pairs.statement⟩

/-- The current token is passed in both texts. -/
theorem Pairs.behind {token : Token} (pairs : graft.Pairs (token :: ahead) before other) :
    graft.Pairs ahead before.behind other.behind := by
  have inside := (pairs.cursor.ahead token List.mem_cons_self).1
  have current := pairs.cursor.current
  have passes := passes_behind (show before.cursor.kind ≠ _ by rwa [Cursor.kind, current.1])
  have passes' := passes_behind (show other.cursor.kind ≠ _ by rwa [Cursor.kind, current.2])
  rw [current.1] at passes
  rw [current.2] at passes'
  have stands : before.behind.cursor.rest = ahead ++ graft.behind := by
    have whole := passes.rest
    rw [pairs.cursor.rest] at whole
    exact (List.cons.inj whole).2.symm
  obtain ⟨_, after', again, joins⟩ := pairs.cursor.passes passes stands
  obtain rfl := again.unique passes'
  refine ⟨joins, ?_⟩
  unfold Analysis.behind
  dsimp only
  rw [pairs.statement, pairs.cursor.ownerBefore_tail]

/-- An expression is passed in the other text up to the same place. -/
theorem Pairs.plainItemRounds {item last : PlainItem} (pairs : graft.Pairs ahead before other)
    (ran : Rounds plainItemRound item before last after) (within : item.Within graft.limit)
    (stands : after.cursor.rest = left ++ graft.behind) :
    last.Within graft.limit ∧ ∃ after', Rounds plainItemRound item other last after' ∧
      graft.Pairs left after after' := by
  induction ran generalizing ahead other with
  | done answers =>
    rcases yields_plainItemRound.mp answers with ⟨outside, ends, same, rfl⟩ | ⟨_, _, _, next, _⟩
    · cases same
      obtain rfl : ahead = left := List.append_cancel_right (pairs.cursor.rest.symm.trans stands)
      exact ⟨within, other, .done (yields_plainItemRound.mpr
        (.inl ⟨outside, pairs.cursor.atTerminator ends, rfl, rfl⟩)), pairs⟩
    · cases next
  | @next item _ before between after _ answers ran ih =>
    rcases yields_plainItemRound.mp answers with ⟨_, _, ended, _⟩ | ⟨goes, depth, admits, next, rfl⟩
    · cases ended
    · cases next
      obtain ⟨tokens, _, _, reads, _⟩ := plainItemRounds_read ran
      have passes := passes_behind admits.inside
      obtain rfl : ahead = before.cursor.current :: (tokens ++ left) := by
        have whole := pairs.cursor.rest.symm.trans passes.rest
        rw [reads.moves.rest, stands] at whole
        exact List.append_cancel_right (by simpa using whole)
      obtain ⟨_, current⟩ := pairs.cursor.current
      have kind := pairs.cursor.kind_eq (by simp)
      obtain ⟨ended, after', ran', pairs'⟩ := ih pairs.behind
        (within.pass (pairs.cursor.ahead _ List.mem_cons_self).2) stands
      refine ⟨ended, after', .next (yields_plainItemRound.mpr (.inr ⟨?_, depth, ?_, ?_, rfl⟩)) ran',
        pairs'⟩
      · intro outside
        unfold AnalysisStep.atTerminator
        rw [kind]
        exact goes outside
      · rw [current]
        rcases pairs.cursor.frontKind_tail with same | ⟨_, comma⟩
        · rw [same]
          exact admits
        · rw [comma]
          exact ⟨admits.deepens, by simp, admits.noExists, admits.inside⟩
      · rw [current]

/-- An expression is read in the other text as in this one. -/
theorem Pairs.plainItem {start : Nat} {afterValue : Bool} {answer : Item}
    (pairs : graft.Pairs ahead before other)
    (answers : Yields (plainItem start afterValue) before answer after) (begins : start ≤ graft.limit)
    (stands : after.cursor.rest = left ++ graft.behind) :
    ∃ after', Yields (AnalysisStep.plainItem start afterValue) other answer after' ∧
      graft.Pairs left after after' := by
  obtain ⟨item, between, stop, given, ran, some, rfl, named⟩ := yields_plainItem.mp answers
  have within : PlainItem.Within graft.limit
      { stop := max before.cursor.previous.stop start, afterValue } :=
    ⟨Nat.max_le.mpr ⟨pairs.cursor.stop, begins⟩, by simp⟩
  have quoted {after' : Analysis} (pairs : graft.Pairs left after after')
      (inside : stop ≤ graft.limit) :
      after.cursor.source ⟨start, stop⟩ = after'.cursor.source ⟨start, stop⟩ := by
    rw [Cursor.source, Cursor.source, pairs.cursor.grown, pairs.cursor.text]
    exact (graft.quotes _ inside).symm
  rw [← pairs.cursor.previous] at ran
  rcases named with ⟨token, found, rfl, rfl⟩ | ⟨none, rfl, aliased⟩
  · obtain ⟨ended, after', ran', pairs'⟩ := pairs.plainItemRounds ran (by
      rwa [pairs.cursor.previous]) stands
    rw [quoted pairs' (ended.aliasName _ found)]
    exact ⟨after', yields_plainItem.mpr ⟨item, after', stop, _, ran', some, rfl,
      .inl ⟨token, found, rfl, rfl⟩⟩, pairs'⟩
  · obtain ⟨cursor, scanned, rfl⟩ := yields_scan.mp aliased
    obtain ⟨tokens, _, passes⟩ := aliasName_cases scanned
    have middle : between.cursor.rest = (tokens ++ left) ++ graft.behind := by
      rw [passes.rest, stands, List.append_assoc]
    obtain ⟨ended, between', ran', pairs'⟩ := pairs.plainItemRounds ran (by
      rwa [pairs.cursor.previous]) middle
    obtain ⟨after', aliased', pairs''⟩ := pairs'.scan aliased pairs'.cursor.aliasName stands
    rw [quoted pairs'' ended.stop]
    exact ⟨after', yields_plainItem.mpr ⟨item, between', _, _, ran', some, rfl,
      .inr ⟨none, rfl, aliased'⟩⟩, pairs''⟩

/-- Another cursor is put into both analyses. -/
theorem Pairs.move {cursor cursor' : Cursor} (pairs : graft.Pairs ahead before other)
    (joins : graft.Joins left cursor cursor') :
    graft.Pairs left { before with cursor } { other with cursor := cursor' } :=
  ⟨joins, pairs.statement⟩

/-- A call is one in the other text. A group is no call of the item unless one of its tokens stands before
the comma. -/
theorem Pairs.called {token : Token} {function : AggregateFunction} {argument : String} {cursor : Cursor}
    {rest : List Token} (pairs : graft.Pairs (token :: ahead) before other)
    (found : AnalysisStep.aggregateAt? before.cursor = some function)
    (grouped : Yields Scan.group before.cursor.advance argument cursor)
    (upTo : cursor.rest = rest ++ graft.behind) :
    AnalysisStep.aggregateAt? other.cursor = some function ∧
      ∃ cursor', Yields Scan.group other.cursor.advance argument cursor' ∧
        graft.Joins rest cursor cursor' := by
  refine ⟨?_, pairs.cursor.advance.group grouped upTo⟩
  obtain ⟨_, _, group, _, _, _, isGroup, moves, _⟩ := group_of_call found grouped
  rcases pairs.cursor.aggregateAt? with same | ⟨rfl, _⟩
  · rw [same, found]
  · have whole := pairs.cursor.advance.rest.symm.trans moves.rest
    rw [upTo, ← List.append_assoc] at whole
    exact absurd (List.append_eq_nil_iff.mp (List.append_cancel_right whole).symm).1
      (Token.Closing.ne_nil isGroup)

/-- An item is read in the other text as in this one. -/
theorem Pairs.item {dialect : Dialect} (noWord : dialect.itemWord = none) {position : Nat}
    {answer : Item} (pairs : graft.Pairs ahead before other)
    (answers : Yields (item dialect position) before answer after)
    (stands : after.cursor.rest = left ++ graft.behind) :
    ∃ after', Yields (AnalysisStep.item dialect position) other answer after' ∧
      graft.Pairs left after after' := by
  obtain ⟨projected, _, fits, _, _, reads⟩ := item_reads noWord answers
  obtain ⟨token, ahead, rfl⟩ : ∃ token tokens, ahead = token :: tokens := by
    refine List.exists_cons_of_ne_nil fun none => fits.tokens_ne_nil ?_
    have whole := pairs.cursor.rest.symm.trans reads.moves.rest
    rw [none, stands, ← List.append_assoc] at whole
    exact (List.append_eq_nil_iff.mp (List.append_cancel_right whole).symm).1
  have kind := pairs.cursor.kind_eq (by simp)
  have lexeme : other.cursor.lexeme = before.cursor.lexeme := by
    rw [Cursor.lexeme, Cursor.lexeme, pairs.cursor.current.1, pairs.cursor.current.2]
  have star : (other.cursor.at? (.symbol .star) || Text.stripQuotes other.cursor.lexeme == "*") =
      (before.cursor.at? (.symbol .star) || Text.stripQuotes before.cursor.lexeme == "*") := by
    rw [Cursor.at?, Cursor.at?, kind, lexeme]
  have start : other.cursor.start = before.cursor.start := by
    rw [Cursor.start, Cursor.start, pairs.cursor.current.1, pairs.cursor.current.2]
  have begins : before.cursor.start ≤ graft.limit := by
    have inside := (pairs.cursor.ahead token List.mem_cons_self).2
    rw [Token.span_stop] at inside
    rw [Cursor.start, pairs.cursor.current.1]
    omega
  cases (yields_item noWord).mp answers with
  | star isStar aliased =>
    obtain ⟨after', aliased', pairs'⟩ :=
      (pairs.move pairs.cursor.advance).scan aliased pairs.cursor.advance.aliasName stands
    exact ⟨after', (yields_item noWord).mpr (.star (star.trans isStar) aliased'), pairs'⟩
  | call noStar found grouped ends aliased =>
    obtain ⟨_, scanned, rfl⟩ := yields_scan.mp aliased
    obtain ⟨named, _, passes⟩ := aliasName_cases scanned
    obtain ⟨found', cursor', grouped', joins⟩ := pairs.called found grouped (by
      rw [passes.rest, stands, ← List.append_assoc])
    obtain ⟨after', aliased', pairs'⟩ := (pairs.move joins).scan aliased joins.aliasName stands
    exact ⟨after', (yields_item noWord).mpr
      (.call (star.trans noStar) found' grouped' (joins.atItemEnd ends) aliased'), pairs'⟩
  | callInText noStar found grouped goes plain =>
    obtain ⟨text, named, _, _, some, _, _, reads⟩ := plainItem_reads plain
    have inText : text ≠ [] := some (atTerminator_of_atItemEnd goes)
    obtain ⟨found', cursor', grouped', joins⟩ := pairs.called found grouped (by
      rw [reads.moves.rest, stands, ← List.append_assoc])
    obtain ⟨after', plain', pairs'⟩ := (pairs.move joins).plainItem plain begins stands
    rw [← start] at plain'
    have goes' : AnalysisStep.atItemEnd cursor' = false := by
      unfold AnalysisStep.atItemEnd AnalysisStep.atTerminator at *
      rwa [joins.kind_eq (by simp [inText])]
    exact ⟨after', (yields_item noWord).mpr
      (.callInText (star.trans noStar) found' grouped' goes' plain'), pairs'⟩
  | text noStar noCall starts plain =>
    obtain ⟨after', plain', pairs'⟩ := pairs.plainItem plain begins stands
    rw [← start] at plain'
    have noCall' : AnalysisStep.aggregateAt? other.cursor = none := by
      rcases pairs.cursor.aggregateAt? with same | ⟨_, none⟩
      · rw [same, noCall]
      · exact none
    exact ⟨after', (yields_item noWord).mpr
      (.text (star.trans noStar) noCall' (by rwa [kind]) plain'), pairs'⟩

/-- The items of the list are read in the other text, and behind the last of them the reading goes on
where in this text it ends. -/
theorem Pairs.itemRounds {dialect : Dialect} (noWord : dialect.itemWord = none) {position : Nat}
    {answer : Unit} (pairs : graft.Pairs ahead before other)
    (ran : Rounds (itemRound dialect) position before answer after)
    (stands : after.cursor.rest = graft.behind) :
    ∃ between comma following, graft.Pairs [] after between ∧
      following + before.statement.items.length = position + after.statement.items.length ∧
      Passes between.cursor [comma] between.cursor.advance ∧
      ∀ {last : Analysis}, Rounds (itemRound dialect) following
          { between with cursor := between.cursor.advance } () last →
        Rounds (itemRound dialect) position other () last := by
  have add {ahead : List Token} {state state' : Analysis} (pairs : graft.Pairs ahead state state')
      (value : Item) : graft.Pairs ahead (state.add value) (state'.add value) :=
    ⟨pairs.cursor, by rw [Analysis.add, Analysis.add, pairs.statement]⟩
  have count {position : Nat} {before between : Analysis} {value : Item}
      (answers : Yields (AnalysisStep.item dialect position) before value between) :
      (between.add value).statement.items.length = before.statement.items.length + 1 := by
    have kept : between.statement.items = before.statement.items :=
      (item_keeps (P := fun s => s.items = before.statement.items) (fun _ _ => id) noWord
        position).of_yields answers rfl
    simp [Analysis.add, kept]
  induction ran generalizing ahead other with
  | done answers =>
    obtain ⟨value, between, first, outcome⟩ := yields_itemRound.mp answers
    rcases outcome with ⟨_, _, rfl⟩ | ⟨_, next, _⟩
    · have upTo : between.cursor.rest = [] ++ graft.behind := stands
      obtain ⟨between', first', pairs'⟩ := pairs.item noWord first upTo
      have kind := pairs'.cursor.kind_comma
      obtain ⟨comma, _, _, passes⟩ := passes_advance kind (by simp) (by simp)
      refine ⟨between'.add value, comma, _, add pairs' value, ?_, passes, fun later =>
        .next (yields_itemRound.mpr ⟨value, between', first', .inr ⟨kind, rfl, rfl⟩⟩) later⟩
      rw [count first]
      omega
    · cases next
  | @next position following before between after _ answers ran ih =>
    obtain ⟨value, middle, first, outcome⟩ := yields_itemRound.mp answers
    rcases outcome with ⟨_, next, _⟩ | ⟨stop, next, rfl⟩
    · cases next
    · cases next
      obtain ⟨comma, _, current, passes⟩ := passes_advance stop (by simp) (by simp)
      obtain ⟨tokens, later⟩ : ∃ tokens, middle.cursor.advance.rest = tokens ++ after.cursor.rest := by
        obtain ⟨_, _, _, _, _, _, _, reads⟩ := items_read noWord ran
        exact ⟨_, reads.moves.rest⟩
      have upTo : middle.cursor.rest = (comma :: tokens) ++ graft.behind := by
        rw [passes.rest, later, stands]
        rfl
      obtain ⟨middle', first', pairs'⟩ := pairs.item noWord first upTo
      have kind := (pairs'.cursor.kind_eq (by simp)).trans stop
      obtain ⟨between', comma', last, pairs'', size, passes', later⟩ :=
        ih ((add pairs' value).move pairs'.cursor.advance) stands
      refine ⟨between', comma', last, pairs'', ?_, passes', fun rest =>
        .next (yields_itemRound.mpr ⟨value, middle', first', .inr ⟨kind, rfl, rfl⟩⟩) (later rest)⟩
      have counted := count first
      dsimp only at size
      omega

end Pairs

/-- The step runs in the other text as in this one when tokens of the list are left behind it. -/
structure Carries {α : Type} (graft : Graft) (step : AnalysisStep α) : Prop where
  moves : ∀ {before after : Analysis} {answer : α}, Yields step before answer after →
    ∃ passed, before.cursor.rest = passed ++ after.cursor.rest
  of_yields : ∀ {before after other : Analysis} {answer : α} {ahead left : List Token},
    graft.Pairs ahead before other → Yields step before answer after →
      after.cursor.rest = left ++ graft.behind → left ≠ [] →
      ∃ after', Yields step other answer after' ∧ graft.Pairs left after after'

namespace Carries
variable {α β : Type}

theorem pure {value : α} : graft.Carries (pure value) where
  moves answers := by
    obtain ⟨_, rfl⟩ := yields_pure.mp answers
    exact ⟨[], rfl⟩
  of_yields pairs answers stands _ := by
    obtain ⟨rfl, rfl⟩ := yields_pure.mp answers
    obtain rfl := List.append_cancel_right (pairs.cursor.rest.symm.trans stands)
    exact ⟨_, yields_pure.mpr ⟨rfl, rfl⟩, pairs⟩

theorem bind {first : AnalysisStep α} {next : α → AnalysisStep β} (one : graft.Carries first)
    (two : ∀ value, graft.Carries (next value)) : graft.Carries (first >>= next) where
  moves answers := by
    obtain ⟨value, between, ran, rest⟩ := yields_bind.mp answers
    obtain ⟨passed, before⟩ := one.moves ran
    obtain ⟨more, behind⟩ := (two value).moves rest
    exact ⟨passed ++ more, by rw [before, behind, List.append_assoc]⟩
  of_yields pairs answers stands some := by
    obtain ⟨value, between, ran, rest⟩ := yields_bind.mp answers
    obtain ⟨more, behind⟩ := (two value).moves rest
    rw [stands, ← List.append_assoc] at behind
    obtain ⟨between', ran', pairs'⟩ := one.of_yields pairs ran behind
      (List.append_ne_nil_of_right_ne_nil more some)
    obtain ⟨after', rest', pairs''⟩ := (two value).of_yields pairs' rest stands some
    exact ⟨after', yields_bind.mpr ⟨value, between', ran', rest'⟩, pairs''⟩

theorem ite {condition : Prop} [Decidable condition] {first second : AnalysisStep α}
    (one : graft.Carries first) (two : graft.Carries second) :
    graft.Carries (if condition then first else second) := by
  split
  · exact one
  · exact two

theorem change {update : Statement → Statement} : graft.Carries (change update) where
  moves answers := by
    obtain rfl := yields_change.mp answers
    exact ⟨[], rfl⟩
  of_yields pairs answers stands _ := by
    obtain rfl := yields_change.mp answers
    obtain rfl := List.append_cancel_right (pairs.cursor.rest.symm.trans stands)
    exact ⟨_, yields_change.mpr rfl, pairs.cursor, by rw [pairs.statement]⟩

theorem skipAnyKeyword (words : List Keyword) :
    graft.Carries (liftM (skipAnyKeyword words) : AnalysisStep Bool) where
  moves answers := by
    obtain ⟨cursor, scanned, rfl⟩ := yields_scan.mp answers
    rcases skipAnyKeyword_cases scanned with ⟨_, _, _, token, _, passes⟩ | ⟨_, _, rfl⟩
    · exact ⟨[token], passes.rest⟩
    · exact ⟨[], rfl⟩
  of_yields pairs answers stands some := pairs.scan answers
    (fun scanned stands => pairs.cursor.skipAnyKeyword scanned stands some) stands

theorem group : graft.Carries (liftM group : AnalysisStep String) where
  moves answers := by
    obtain ⟨cursor, scanned, rfl⟩ := yields_scan.mp answers
    rcases group_cases scanned with ⟨_, _, rfl⟩ | ⟨tokens, _, passes, _⟩
    · exact ⟨[], rfl⟩
    · exact ⟨tokens, passes.rest⟩
  of_yields pairs answers stands _ := pairs.scan answers pairs.cursor.group stands

theorem distinct (dialect : Dialect) : graft.Carries (distinct dialect) := by
  unfold AnalysisStep.distinct
  refine .bind (.skipAnyKeyword _) fun _ => .ite ?_ (.bind (.skipAnyKeyword _) fun _ => .pure)
  refine .bind .change fun _ => .ite ?_ .pure
  exact .bind (.skipAnyKeyword _) fun _ => .ite (.bind .group fun _ => .pure) .pure

end Carries

/-- A query is read in the other text up to the end of its projection list, and behind the comma that
stands there the list goes on. -/
theorem Pairs.head {dialect : Dialect} (noWord : dialect.itemWord = none)
    {before after other : Analysis} (pairs : graft.Pairs ahead before other)
    (empty : before.statement.items = []) (answers : Yields (head dialect) before () after)
    (stands : after.cursor.rest = graft.behind) :
    ∃ (between : Analysis) (comma : Token), graft.Joins [] after.cursor between.cursor ∧
      after.statement = { between.statement with projectionEnd := after.cursor.start } ∧
      Passes between.cursor [comma] between.cursor.advance ∧
      ∀ {last : Analysis}, Rounds (itemRound dialect) (after.statement.items.length + 1)
          { between with cursor := between.cursor.advance } () last →
        Yields (AnalysisStep.head dialect) other ()
          { last with statement := { last.statement with projectionEnd := last.cursor.start } } := by
  obtain ⟨select, cursor, opening, last, passes, is, words, ran, rfl⟩ := head_cases answers
  obtain ⟨first, rest, _, _, fit, _, _, reads⟩ := items_read noWord ran
  have upTo := reads.moves.rest
  rw [show last.cursor.rest = _ from stands] at upTo
  have some : (first :: rest).flatMap Projected.tokens ≠ [] := by
    rw [List.flatMap_cons]
    exact List.append_ne_nil_of_left_ne_nil fit.1.tokens_ne_nil _
  have carried : graft.Carries (distinct dialect) := .distinct dialect
  obtain ⟨passed, behind⟩ := carried.moves words
  rw [upTo, ← List.append_assoc] at behind
  obtain ⟨_, cursor', passes', joins⟩ := pairs.cursor.passes passes behind
  obtain ⟨opening', words', pairs'⟩ := carried.of_yields (pairs.move joins) words upTo some
  obtain ⟨between, comma, following, pairs'', size, commaPasses, later⟩ :=
    pairs'.itemRounds noWord ran stands
  have noItems : opening.statement.items = [] :=
    (distinct_keeps (P := fun s => s.items = []) (fun _ => id) dialect).of_yields words empty
  rw [noItems, List.length_nil, Nat.add_zero, Nat.add_comm] at size
  refine ⟨between, comma, pairs''.cursor, by rw [pairs''.statement], commaPasses, fun more => ?_⟩
  refine yields_bind.mpr ⟨(), _, yields_scan.mpr ⟨_, expectKeyword_answers is passes', rfl⟩,
    yields_bind.mpr ⟨(), _, words', yields_bind.mpr ⟨(), _,
      yields_rounding_of_rounds (later (by rw [size]; exact more)) (itemRound_shrinks noWord), ?_⟩⟩⟩
  exact Step.yields_look_bind.mpr (yields_change.mpr rfl)

end Graft

end SelectRouting
