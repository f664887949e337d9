import SelectRouting.Proofs.Passage

/-!
# What groups, aliases and join operators pass

A group is passed from its opening parenthesis to the one that closes it, whatever stands between
them. An alias is at most two tokens; a join operator is a comma or a few words.
-/

namespace SelectRouting

/-- A name or a string reads as an alias also where no `AS` introduces it. -/
def TokenKind.readsAsAlias : TokenKind → Bool
  | .identifier _ | .string _ => true
  | _ => false

namespace Token

/-- What a token makes of the `depth` parentheses that are open before it: the group goes on with
those that are open behind it, or ends. -/
inductive Turns : (depth : Nat) → Token → Round Nat Unit → Prop where
  | opens {depth : Nat} {token : Token} : token.kind = .symbol .leftParen →
      Turns depth token (.next (depth + 1))
  | last {token : Token} : token.kind = .symbol .rightParen → Turns 1 token (.done ())
  | closes {depth : Nat} {token : Token} : token.kind = .symbol .rightParen →
      Turns (depth + 2) token (.next (depth + 1))
  | other {depth : Nat} {token : Token} : token.kind ≠ .symbol .leftParen →
      token.kind ≠ .symbol .rightParen → Turns (depth + 1) token (.next (depth + 1))

theorem Turns.following_ne_zero {depth following : Nat} {token : Token}
    (turns : Turns depth token (.next following)) : following ≠ 0 := by
  cases turns <;> exact Nat.succ_ne_zero _

theorem Turns.closing_done {depth : Nat} {token : Token} (turns : Turns depth token (.done ())) :
    Closing depth [token] := by
  cases turns with
  | last closing => exact .last closing

theorem Turns.closing_next {depth following : Nat} {token : Token} {tokens : List Token}
    (turns : Turns depth token (.next following)) (rest : Closing following tokens) :
    Closing depth (token :: tokens) := by
  cases turns with
  | opens opening => exact .opens opening rest
  | closes closing => exact .closes closing rest
  | other noOpening noClosing => exact .other noOpening noClosing rest

end Token

namespace Scan
open Step Cursor

/-- A token of a group is passed and takes its turn. -/
theorem groupRound_turns {depth : Nat} {before after : Cursor} {answer : Round Nat Unit}
    (answers : Yields (groupRound depth) before answer after) :
    ∃ token, Passes before [token] after ∧
      ((depth = 0 → before.kind = .symbol .leftParen) → Token.Turns depth token answer) := by
  unfold groupRound at answers
  rw [yields_look_bind] at answers
  split at answers
  · next named =>
    obtain ⟨token, is, _, passes⟩ := passes_advance named (by simp) (by simp)
    simp only [pure_bind, yields_advance_bind, yields_pure] at answers
    obtain ⟨rfl, rfl⟩ := answers
    exact ⟨token, passes, fun _ => .opens is⟩
  · next named =>
    obtain ⟨token, is, _, passes⟩ := passes_advance named (by simp) (by simp)
    simp only [pure_bind, yields_advance_bind, yields_pure] at answers
    obtain ⟨rfl, rfl⟩ := answers
    refine ⟨token, passes, fun inside => ?_⟩
    rcases depth with _ | _ | depth
    · simp [inside rfl] at named
    · exact .last is
    · exact .closes is
  · next named =>
    obtain ⟨token, is, _, passes⟩ := passes_placeholder named
    simp only [pure_bind, yields_modify_bind, yields_advance_bind, yields_pure] at answers
    obtain ⟨rfl, rfl⟩ := answers
    rw [advance_countParameter]
    refine ⟨token, passes, fun inside => ?_⟩
    cases depth with
    | zero => simp [inside rfl] at named
    | succ depth => exact .other (by simp [is]) (by simp [is])
  · simp only [yields_bind, not_yields_fail, false_and, exists_false] at answers
  · next noOpening noClosing noPlaceholder inText =>
    obtain ⟨token, is, _, passes⟩ := passes_advance rfl inText noPlaceholder
    simp only [pure_bind, yields_advance_bind, yields_pure] at answers
    obtain ⟨rfl, rfl⟩ := answers
    refine ⟨token, passes, fun inside => ?_⟩
    cases depth with
    | zero => exact absurd (inside rfl) noOpening
    | succ depth => exact .other (by rwa [is]) (by rwa [is])

/-- A token takes its turn wherever it stands. -/
theorem groupRound_answers {depth : Nat} {before after : Cursor} {token : Token}
    {answer : Round Nat Unit} (turns : Token.Turns depth token answer)
    (passes : Passes before [token] after) (inside : token.kind ≠ .endOfInput) :
    Yields (groupRound depth) before answer after := by
  have kind : before.kind = token.kind := congrArg Token.kind (current_of_cons passes.rest)
  unfold groupRound
  rw [yields_look_bind, kind]
  cases turns with
  | opens opening =>
    rw [opening, passes.eq_advance (by simp [opening])]
    exact yields_pure.mpr ⟨rfl, rfl⟩
  | last closing =>
    rw [closing, passes.eq_advance (by simp [closing])]
    exact yields_pure.mpr ⟨rfl, rfl⟩
  | closes closing =>
    rw [closing, passes.eq_advance (by simp [closing])]
    exact yields_pure.mpr ⟨rfl, rfl⟩
  | other noOpening noClosing =>
    split
    · next opening => exact absurd opening noOpening
    · next closing => exact absurd closing noClosing
    · next placeholder =>
      rw [passes.eq_counted placeholder, ← advance_countParameter]
      exact yields_pure.mpr ⟨rfl, rfl⟩
    · next ended => exact absurd ended inside
    · next noPlaceholder _ =>
      rw [passes.eq_advance noPlaceholder]
      exact yields_pure.mpr ⟨rfl, rfl⟩

/-- The rounds of a group pass all tokens up to the closing parenthesis. -/
theorem closing_of_groupRounds {depth : Nat} {before after : Cursor} {answer : Unit}
    (ran : Rounds groupRound depth before answer after)
    (inside : depth = 0 → before.kind = .symbol .leftParen) :
    ∃ tokens, Token.Closing depth tokens ∧ Passes before tokens after := by
  induction ran with
  | done answers =>
    obtain ⟨token, passes, turns⟩ := groupRound_turns answers
    exact ⟨[token], (turns inside).closing_done, passes⟩
  | next answers _ ih =>
    obtain ⟨token, passes, turns⟩ := groupRound_turns answers
    obtain ⟨tokens, closing, rest⟩ :=
      ih fun outside => absurd outside (turns inside).following_ne_zero
    exact ⟨token :: tokens, (turns inside).closing_next closing, passes.trans rest⟩

theorem groupRounds_of_closing {depth : Nat} {before after : Cursor} {tokens : List Token}
    (closing : Token.Closing depth tokens) (passes : Passes before tokens after)
    (inside : ∀ token ∈ tokens, token.kind ≠ .endOfInput) :
    Rounds groupRound depth before () after := by
  induction closing generalizing before with
  | @last token closing => exact .done (groupRound_answers (.last closing) passes (inside _ (by simp)))
  | @opens depth token tokens opening _ ih =>
    obtain ⟨between, first, rest⟩ := passes.uncons
    exact .next (groupRound_answers (.opens opening) first (inside _ (by simp)))
      (ih rest fun other member => inside other (List.mem_cons_of_mem _ member))
  | @closes depth token tokens closing _ ih =>
    obtain ⟨between, first, rest⟩ := passes.uncons
    exact .next (groupRound_answers (.closes closing) first (inside _ (by simp)))
      (ih rest fun other member => inside other (List.mem_cons_of_mem _ member))
  | @other depth token tokens noOpening noClosing _ ih =>
    obtain ⟨between, first, rest⟩ := passes.uncons
    exact .next (groupRound_answers (.other noOpening noClosing) first (inside _ (by simp)))
      (ih rest fun other member => inside other (List.mem_cons_of_mem _ member))

theorem groupRound_shrinks {depth : Nat} {before after : Cursor} {answer : Round Nat Unit}
    (answers : Yields (groupRound depth) before answer after) :
    after.rest.length < before.rest.length := by
  obtain ⟨token, passes, _⟩ := groupRound_turns answers
  simp [passes.rest]

/-- A group is passed as a whole, and nothing where none begins. -/
theorem group_cases {before after : Cursor} {answer : String}
    (answers : Yields group before answer after) :
    (before.kind ≠ .symbol .leftParen ∧ answer = "" ∧ before = after) ∨
      ∃ tokens, Token.IsGroup tokens ∧ Passes before tokens after ∧
        answer = before.source (Token.cover tokens) := by
  unfold group at answers
  rw [yields_look_bind, yields_ite, yields_pure, yields_look_bind, yields_bind] at answers
  obtain ⟨stands, _, between, repeated, looked⟩ | ⟨elsewhere, rfl, rfl⟩ := answers
  · obtain ⟨rfl, rfl⟩ := yields_look.mp looked
    obtain ⟨tokens, closing, passes⟩ := closing_of_groupRounds (rounds_of_rounding repeated)
      fun _ => at?_symbol.mp stands
    refine .inr ⟨tokens, closing, passes, ?_⟩
    rw [passes.cover (Token.Closing.ne_nil closing), Cursor.source, passes.text, Cursor.source]
  · exact .inl ⟨fun stands => elsewhere (at?_symbol.mpr stands), rfl, rfl⟩

theorem group_absent {cursor : Cursor} (noGroup : cursor.kind ≠ .symbol .leftParen) :
    Yields group cursor "" cursor := by
  unfold group
  rw [yields_look_bind, yields_ite]
  exact .inr ⟨mt at?_symbol.mp noGroup, yields_pure.mpr ⟨rfl, rfl⟩⟩

/-- A group is passed and quoted wherever it stands. -/
theorem group_answers {before after : Cursor} {tokens : List Token} (isGroup : Token.IsGroup tokens)
    (passes : Passes before tokens after) (inside : ∀ token ∈ tokens, token.kind ≠ .endOfInput) :
    Yields group before (before.source (Token.cover tokens)) after := by
  have opens : before.kind = .symbol .leftParen := by
    rw [← passes.frontKind (Token.Closing.ne_nil isGroup)]
    exact isGroup.frontKind
  unfold group
  rw [yields_look_bind, yields_ite, yields_look_bind, passes.cover (Token.Closing.ne_nil isGroup)]
  refine .inl ⟨at?_symbol.mpr opens, yields_bind.mpr ⟨(), after, ?_, yields_look.mpr ⟨?_, rfl⟩⟩⟩
  · exact yields_rounding_of_rounds (groupRounds_of_closing isGroup passes inside) groupRound_shrinks
  · rw [Cursor.source, Cursor.source, passes.text]

/-- The tokens are an alias, which is answered without quotes, and `next` is the kind of the token
behind them. Without an alias there is nothing, or an `AS` before a symbol or the end of the
input. -/
inductive AliasTokens : List Token → Option String → TokenKind → Prop where
  | absent {next : TokenKind} : next ≠ .keyword .AS → next.readsAsAlias = false →
      AliasTokens [] none next
  | dangling {word : Token} {next : TokenKind} : word.kind = .keyword .AS →
      next.isSymbol = true ∨ next = .endOfInput → AliasTokens [word] none next
  | introduced {word token : Token} {next : TokenKind} : word.kind = .keyword .AS →
      token.kind.isSymbol = false → token.kind ≠ .endOfInput →
        AliasTokens [word, token] (some (Text.stripQuotes token.lexeme)) next
  | bare {token : Token} {next : TokenKind} : token.kind.readsAsAlias = true →
      AliasTokens [token] (some (Text.stripQuotes token.lexeme)) next

/-- An alias passes its own tokens. -/
theorem aliasName_cases {before after : Cursor} {answer : Option String}
    (answers : Yields aliasName before answer after) :
    ∃ tokens, AliasTokens tokens answer after.kind ∧ Passes before tokens after := by
  obtain ⟨introduced, between, first, rest⟩ := yields_bind.mp answers
  rcases skipKeyword_cases first with ⟨rfl, word, named, passes⟩ | ⟨rfl, elsewhere, rfl⟩
  · rw [if_pos rfl, yields_look_bind, yields_ite] at rest
    obtain ⟨stands, taken⟩ | ⟨ends, none⟩ := rest
    · rw [yields_look_bind, yields_advance_bind, yields_pure] at taken
      obtain ⟨rfl, rfl⟩ := taken
      obtain ⟨noSymbol, inside⟩ := atSymbolOrEnd_eq_false.mp (by simpa using stands)
      obtain ⟨token, is, current, more⟩ := passes_advance rfl inside (by
        intro placeholder
        simp [placeholder, TokenKind.isSymbol] at noSymbol)
      refine ⟨[word, token], ?_, passes.trans more⟩
      have written : between.lexeme = token.lexeme := by rw [Cursor.lexeme, current]
      rw [written]
      exact .introduced named (by rw [is, noSymbol]) (by rwa [is])
    · obtain ⟨rfl, same⟩ := yields_pure.mp none
      rw [same]
      exact ⟨[word], .dangling named (atSymbolOrEnd_iff.mp (by simpa using ends)), passes⟩
  · rw [if_neg Bool.false_ne_true, yields_look_bind, yields_ite] at rest
    change (before.kind.readsAsAlias = true ∧ _) ∨ (¬ before.kind.readsAsAlias = true ∧ _) at rest
    obtain ⟨stands, taken⟩ | ⟨none, absent⟩ := rest
    · rw [yields_look_bind, yields_advance_bind, yields_pure] at taken
      obtain ⟨rfl, rfl⟩ := taken
      have bare : before.kind ≠ .endOfInput ∧ before.kind ≠ .symbol .question := by
        constructor <;>
        · intro other
          simp [other, TokenKind.readsAsAlias] at stands
      obtain ⟨token, is, current, passes⟩ := passes_advance rfl bare.1 bare.2
      rw [Cursor.lexeme, current]
      exact ⟨[token], .bare (by rw [is, stands]), passes⟩
    · obtain ⟨rfl, same⟩ := yields_pure.mp absent
      rw [same]
      exact ⟨[], .absent elsewhere (by simpa using none), .refl before⟩

/-- An alias is passed and answered wherever its tokens stand. -/
theorem aliasName_answers {before after : Cursor} {tokens : List Token} {answer : Option String}
    (are : AliasTokens tokens answer after.kind) (passes : Passes before tokens after) :
    Yields aliasName before answer after := by
  have word {token : Token} (named : token.kind = .keyword .AS) (stands : before.current = token) :
      Yields (skipKeyword .AS) before true before.advance :=
    yields_skipWhen.mpr (.inl ⟨atKeyword?_iff.mpr ⟨.AS, by simp, by rw [kind, stands, named]⟩,
      rfl, rfl⟩)
  have noWord (other : before.kind ≠ .keyword .AS) :
      Yields (skipKeyword .AS) before false before := by
    refine yields_skipWhen.mpr (.inr ⟨Bool.eq_false_iff.mpr fun found => ?_, rfl, rfl⟩)
    obtain ⟨_, member, stands⟩ := atKeyword?_iff.mp found
    rw [List.mem_singleton.mp member] at stands
    exact other stands
  unfold aliasName
  cases are with
  | absent other noAlias =>
    obtain rfl := passes.unique (.refl before)
    refine yields_bind.mpr ⟨false, after, noWord other, ?_⟩
    rw [if_neg Bool.false_ne_true, yields_look_bind, yields_ite]
    change (after.kind.readsAsAlias = true ∧ _) ∨ (¬ after.kind.readsAsAlias = true ∧ _)
    exact .inr ⟨Bool.eq_false_iff.mp noAlias, yields_pure.mpr ⟨rfl, rfl⟩⟩
  | dangling named ends =>
    obtain rfl := passes.eq_advance (by simp [named])
    refine yields_bind.mpr ⟨true, _, word named (current_of_cons passes.rest), ?_⟩
    rw [if_pos rfl, yields_look_bind, yields_ite]
    exact .inr ⟨by simp [atSymbolOrEnd_iff.mpr ends], yields_pure.mpr ⟨rfl, rfl⟩⟩
  | @introduced first token _ named noSymbol inside =>
    obtain ⟨between, one, two⟩ := passes.uncons
    have uncounted : token.kind ≠ .symbol .question := by
      intro placeholder
      simp [placeholder, TokenKind.isSymbol] at noSymbol
    obtain rfl := one.eq_advance (by simp [named])
    obtain rfl := two.eq_advance uncounted
    have current := current_of_cons two.rest
    refine yields_bind.mpr ⟨true, _, word named (current_of_cons one.rest), ?_⟩
    rw [if_pos rfl, yields_look_bind, yields_ite]
    refine .inl ⟨?_, ?_⟩
    · rw [atSymbolOrEnd_eq_false.mpr ⟨by rw [kind, current, noSymbol], by rwa [kind, current]⟩]
      rfl
    · rw [yields_look_bind, yields_advance_bind, yields_pure, lexeme, current]
      exact ⟨rfl, rfl⟩
  | @bare token _ reads =>
    have current := current_of_cons passes.rest
    have other {kind : TokenKind} (is : kind.readsAsAlias = false) : token.kind ≠ kind := by
      rintro rfl
      simp [is] at reads
    obtain rfl := passes.eq_advance (other rfl)
    refine yields_bind.mpr ⟨false, before, noWord (by rw [kind, current]; exact other rfl), ?_⟩
    rw [if_neg Bool.false_ne_true, yields_look_bind, yields_ite]
    change (before.kind.readsAsAlias = true ∧ _) ∨ (¬ before.kind.readsAsAlias = true ∧ _)
    refine .inl ⟨by rw [kind, current, reads], ?_⟩
    rw [yields_look_bind, yields_advance_bind, yields_pure, lexeme, current]
    exact ⟨rfl, rfl⟩

/-- The words that announce a join: `JOIN` is required behind them. -/
def joinAnnouncements : List (List Keyword) :=
  [[.INNER], [.CROSS], [.NATURAL], [.NATURAL, .LEFT], [.NATURAL, .LEFT, .OUTER], [.NATURAL, .RIGHT],
    [.NATURAL, .RIGHT, .OUTER], [.LEFT], [.LEFT, .OUTER], [.RIGHT], [.RIGHT, .OUTER], [.FULL],
    [.FULL, .OUTER]]

/-- The join operators. -/
def joinOperators : List (List TokenKind) :=
  [[.symbol .comma], [.keyword .JOIN], [.keyword .STRAIGHT_JOIN]] ++
    joinAnnouncements.map fun words => words.map .keyword ++ [.keyword .JOIN]

/-- One of the words is passed, or nothing. -/
theorem skipJoinWord_cases {words : List Keyword} {before after : Cursor} {answer : Bool}
    (answers : Yields (skipAnyKeyword words) before answer after) :
    (answer = true ∧ ∃ tokens, Passes before tokens after ∧
        ∃ word ∈ words, tokens.map Token.kind = [.keyword word]) ∨
      (answer = false ∧ before = after) := by
  rcases skipAnyKeyword_cases answers with ⟨rfl, word, member, token, is, passes⟩ | ⟨rfl, _, rfl⟩
  · exact .inl ⟨rfl, [token], passes, word, member, by simp [is]⟩
  · exact .inr ⟨rfl, rfl⟩

/-- Behind a side of an outer join `OUTER` is passed, or nothing. -/
theorem skipOuter_cases {before after : Cursor} {answer : Bool}
    (answers : Yields (skipKeyword .OUTER) before answer after) :
    ∃ tokens, Passes before tokens after ∧
      (tokens.map Token.kind = [] ∨ tokens.map Token.kind = [.keyword .OUTER]) := by
  rcases skipJoinWord_cases answers with ⟨_, tokens, passes, word, member, are⟩ | ⟨_, rfl⟩
  · rw [List.mem_singleton.mp member] at are
    exact ⟨tokens, passes, .inr are⟩
  · exact ⟨[], .refl _, .inl rfl⟩

/-- The words that announce a join are passed, or nothing. -/
theorem joinAnnouncement_cases {before after : Cursor} {answer : Bool}
    (answers : Yields joinAnnouncement before answer after) :
    (answer = true ∧ ∃ tokens, Passes before tokens after ∧
        ∃ words ∈ joinAnnouncements, tokens.map Token.kind = words.map .keyword) ∨
      (answer = false ∧ before = after) := by
  obtain ⟨natural, between, first, rest⟩ := yields_bind.mp answers
  rcases skipJoinWord_cases first with ⟨rfl, one, passes, word, isNatural, areOne⟩ | ⟨rfl, rfl⟩
  · obtain rfl := List.mem_singleton.mp isNatural
    rw [if_pos rfl] at rest
    obtain ⟨sided, further, second, rest⟩ := yields_bind.mp rest
    rcases skipJoinWord_cases second with ⟨rfl, two, more, side, isSide, areTwo⟩ | ⟨rfl, rfl⟩
    · rw [if_pos rfl] at rest
      obtain ⟨_, last, third, rest⟩ := yields_bind.mp rest
      obtain ⟨rfl, rfl⟩ := yields_pure.mp rest
      obtain ⟨three, most, areThree⟩ := skipOuter_cases third
      refine .inl ⟨rfl, one ++ two ++ three, (passes.trans more).trans most, ?_⟩
      rcases (by simpa using isSide : side = .LEFT ∨ side = .RIGHT) with rfl | rfl <;>
      · rcases areThree with none | outer <;> simp [joinAnnouncements, *]
    · obtain ⟨rfl, rfl⟩ := yields_pure.mp rest
      exact .inl ⟨rfl, one, passes, [.NATURAL], by simp [joinAnnouncements], areOne⟩
  · rw [if_neg Bool.false_ne_true] at rest
    obtain ⟨sided, further, second, rest⟩ := yields_bind.mp rest
    rcases skipJoinWord_cases second with ⟨rfl, two, more, side, isSide, areTwo⟩ | ⟨rfl, rfl⟩
    · rw [if_pos rfl] at rest
      obtain ⟨_, last, third, rest⟩ := yields_bind.mp rest
      obtain ⟨rfl, rfl⟩ := yields_pure.mp rest
      obtain ⟨three, most, areThree⟩ := skipOuter_cases third
      refine .inl ⟨rfl, two ++ three, more.trans most, ?_⟩
      rcases (by simpa using isSide : side = .LEFT ∨ side = .RIGHT ∨ side = .FULL) with rfl | rfl | rfl <;>
      · rcases areThree with none | outer <;> simp [joinAnnouncements, *]
    · rw [if_neg Bool.false_ne_true] at rest
      rcases skipJoinWord_cases rest with ⟨rfl, words, passes, word, among, are⟩ | ⟨rfl, rfl⟩
      · refine .inl ⟨rfl, words, passes, [word], ?_, are⟩
        rcases (by simpa using among : word = .INNER ∨ word = .CROSS) with rfl | rfl <;>
          simp [joinAnnouncements]
      · exact .inr ⟨rfl, rfl⟩

/-- A join operator is passed, or nothing. -/
theorem join_cases {before after : Cursor} {answer : Bool} (answers : Yields join before answer after) :
    (answer = true ∧ ∃ tokens, Passes before tokens after ∧
        tokens.map Token.kind ∈ joinOperators) ∨
      (answer = false ∧ before = after) := by
  obtain ⟨comma, between, first, rest⟩ := yields_bind.mp answers
  rcases skipSymbol_cases first (by simp) with ⟨rfl, mark, named, passes⟩ | ⟨rfl, _, rfl⟩
  · rw [if_pos rfl, yields_pure] at rest
    obtain ⟨rfl, rfl⟩ := rest
    exact .inl ⟨rfl, [mark], passes, by simp [joinOperators, named]⟩
  rw [if_neg Bool.false_ne_true] at rest
  obtain ⟨plain, between, first, rest⟩ := yields_bind.mp rest
  rcases skipJoinWord_cases first with ⟨rfl, words, passes, word, among, are⟩ | ⟨rfl, rfl⟩
  · rw [if_pos rfl, yields_pure] at rest
    obtain ⟨rfl, rfl⟩ := rest
    refine .inl ⟨rfl, words, passes, ?_⟩
    rcases (by simpa using among : word = .JOIN ∨ word = .STRAIGHT_JOIN) with rfl | rfl <;>
      simp [joinOperators, are]
  rw [if_neg Bool.false_ne_true] at rest
  obtain ⟨announced, further, second, rest⟩ := yields_bind.mp rest
  rcases joinAnnouncement_cases second with ⟨rfl, tokens, announces, words, known, are⟩ | ⟨rfl, rfl⟩
  · rw [if_pos rfl] at rest
    obtain ⟨_, _, required, rest⟩ := yields_bind.mp rest
    obtain ⟨last, is, passes⟩ := expectKeyword_passes required
    obtain ⟨rfl, rfl⟩ := yields_pure.mp rest
    refine .inl ⟨rfl, tokens ++ [last], announces.trans passes, List.mem_append_right _ ?_⟩
    exact List.mem_map.mpr ⟨words, known, by simp [are, is]⟩
  · rw [if_neg Bool.false_ne_true] at rest
    obtain ⟨rfl, rfl⟩ := yields_pure.mp rest
    exact .inr ⟨rfl, rfl⟩

end Scan

end SelectRouting
