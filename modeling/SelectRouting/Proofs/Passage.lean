import SelectRouting.Proofs.Outcome
import SelectRouting.Proofs.TokenGroups
import SelectRouting.Scan.Alias
import SelectRouting.Scan.Join

/-!
# What a scan passes

The cursor moves over whole tokens. Each scan is described by the tokens between the place it starts
at and the place it ends at (`Cursor.Passes`), so that the description of a composed scan is put
together from those of its parts (`Cursor.Passes.trans`).
-/

namespace SelectRouting

namespace Cursor

/-- The cursor `after` stands behind the tokens `passed`, which begin at `before`. -/
structure Moves (before : Cursor) (passed : List Token) (after : Cursor) : Prop where
  text : after.text = before.text
  rest : before.rest = passed ++ after.rest
  previous : after.previous = (passed.getLast?.map Token.span).getD before.previous

/-- The cursor moves over the tokens and counts the placeholders among them. -/
structure Passes (before : Cursor) (passed : List Token) (after : Cursor) : Prop
    extends Moves before passed after where
  parameters : after.parameters = before.parameters + Token.placeholders passed

theorem Moves.refl (cursor : Cursor) : Moves cursor [] cursor :=
  ⟨rfl, rfl, rfl⟩

theorem Moves.trans {first second third : Cursor} {one two : List Token}
    (left : Moves first one second) (right : Moves second two third) :
    Moves first (one ++ two) third where
  text := right.text.trans left.text
  rest := by rw [left.rest, right.rest, List.append_assoc]
  previous := by
    rw [right.previous, left.previous, List.getLast?_append]
    cases two.getLast? with
    | none => rfl
    | some _ => rfl

/-- The places of the cursor decide which tokens it moves over. -/
theorem Moves.tokens_eq {before after : Cursor} {one two : List Token} (left : Moves before one after)
    (right : Moves before two after) : one = two :=
  List.append_cancel_right (left.rest.symm.trans right.rest)

theorem Passes.refl (cursor : Cursor) : Passes cursor [] cursor :=
  ⟨.refl cursor, rfl⟩

theorem Passes.trans {first second third : Cursor} {one two : List Token}
    (left : Passes first one second) (right : Passes second two third) :
    Passes first (one ++ two) third where
  toMoves := left.toMoves.trans right.toMoves
  parameters := by
    rw [right.parameters, left.parameters, Token.placeholders_append, Nat.add_assoc]

/-- A cursor passes the tokens that it stands before. -/
theorem exists_passes {cursor : Cursor} {tokens rest : List Token}
    (stands : cursor.rest = tokens ++ rest) : ∃ after, Passes cursor tokens after ∧ after.rest = rest :=
  ⟨{  text := cursor.text
      rest
      previous := (tokens.getLast?.map Token.span).getD cursor.previous
      parameters := cursor.parameters + Token.placeholders tokens },
    ⟨⟨rfl, stands, rfl⟩, rfl⟩, rfl⟩

/-- Between the tokens that are passed there is a place for a cursor. -/
theorem Passes.split {first third : Cursor} {one two : List Token}
    (passes : Passes first (one ++ two) third) :
    ∃ second, Passes first one second ∧ Passes second two third := by
  have stands := passes.rest
  rw [List.append_assoc] at stands
  obtain ⟨second, left, rest⟩ := exists_passes stands
  refine ⟨second, left, ⟨⟨passes.text.trans left.text.symm, rest, ?_⟩, ?_⟩⟩
  · rw [passes.previous, left.previous, List.getLast?_append]
    cases two.getLast? with
    | none => rfl
    | some _ => rfl
  · rw [passes.parameters, left.parameters, Token.placeholders_append, Nat.add_assoc]

theorem Passes.uncons {first third : Cursor} {token : Token} {tokens : List Token}
    (passes : Passes first (token :: tokens) third) :
    ∃ second, Passes first [token] second ∧ Passes second tokens third :=
  @Passes.split first third [token] tokens passes

/-- The tokens that are passed decide where the cursor stands behind them. -/
theorem Passes.unique {before after other : Cursor} {tokens : List Token}
    (left : Passes before tokens after) (right : Passes before tokens other) : after = other := by
  have rest : after.rest = other.rest := List.append_cancel_left (left.rest.symm.trans right.rest)
  have text := left.text.trans right.text.symm
  have previous := left.previous.trans right.previous.symm
  have parameters := left.parameters.trans right.parameters.symm
  cases after
  cases other
  cases rest
  cases text
  cases previous
  cases parameters
  rfl

/-- What is passed begins where the cursor stands before and ends with the token last passed. -/
theorem Moves.cover {before after : Cursor} {tokens : List Token}
    (moves : Moves before tokens after) (some : tokens ≠ []) :
    Token.cover tokens = ⟨before.start, after.previous.stop⟩ := by
  have last := moves.previous
  rw [List.getLast?_eq_some_getLast some] at last
  obtain ⟨token, rest, rfl⟩ := List.exists_cons_of_ne_nil some
  have current : before.current = token := by
    simp [Cursor.current, Cursor.peek, moves.rest]
  simp [Token.cover, Cursor.start, current, last, List.getLast?_eq_some_getLast]

/-- The first token that is passed stands at the cursor. -/
theorem Moves.start_head? {before after : Cursor} {tokens more : List Token}
    (moves : Moves before (tokens ++ more) after) :
    ∀ token ∈ tokens.head?, token.start = before.start := by
  intro token first
  obtain ⟨others, rfl⟩ := List.head?_eq_some_iff.mp first
  have current : before.current = token := by
    simp [Cursor.current, Cursor.peek, moves.rest]
  rw [Cursor.start, current]

theorem kind_eq_frontKind (cursor : Cursor) : cursor.kind = Token.frontKind cursor.rest := by
  cases tokens : cursor.rest <;>
    simp [Cursor.kind, Cursor.current, Cursor.peek, Token.frontKind, tokens, Token.eof]

theorem kind_peek_one (cursor : Cursor) :
    (cursor.peek 1).kind = Token.frontKind cursor.rest.tail := by
  rcases tokens : cursor.rest with _ | ⟨_, _ | ⟨_, _⟩⟩ <;>
    simp [Cursor.peek, Token.frontKind, tokens, Token.eof]

theorem opensSubquery_iff {cursor : Cursor} :
    cursor.opensSubquery = true ↔ Token.frontKind cursor.rest.tail = .keyword .SELECT := by
  rw [opensSubquery, kind_peek_one, beq_iff_eq]

theorem start_eq_frontStart (cursor : Cursor) :
    cursor.start = Token.frontStart cursor.text.utf8ByteSize cursor.rest := by
  cases tokens : cursor.rest <;>
    simp [Cursor.start, Cursor.current, Cursor.peek, Token.frontStart, tokens, Token.eof]

theorem Moves.frontKind {before after : Cursor} {tokens : List Token}
    (moves : Moves before tokens after) (some : tokens ≠ []) :
    Token.frontKind tokens = before.kind := by
  rw [kind_eq_frontKind, moves.rest, Token.frontKind_append some]

/-- A cursor at a kind of token other than the end of the input stands at a token of that kind. -/
theorem exists_token {cursor : Cursor} {kind : TokenKind} (stands : cursor.kind = kind)
    (inside : kind ≠ .endOfInput) :
    ∃ token rest, cursor.rest = token :: rest ∧ token.kind = kind ∧ cursor.current = token := by
  cases tokens : cursor.rest with
  | nil =>
    have atEnd : cursor.kind = .endOfInput := by
      simp [Cursor.kind, Cursor.current, Cursor.peek, tokens, Token.eof]
    exact absurd (stands.symm.trans atEnd) inside
  | cons token rest =>
    have current : cursor.current = token := by
      simp [Cursor.current, Cursor.peek, tokens]
    refine ⟨token, rest, rfl, ?_, current⟩
    rw [← stands, Cursor.kind, current]

/-- A cursor at a word stands at a token that spells it. -/
theorem exists_word {cursor : Cursor} {word : String} (stands : cursor.atWord? word = true)
    (some : word.toList ≠ []) :
    ∃ token rest, cursor.rest = token :: rest ∧ cursor.current = token ∧
      Text.sameIgnoringCase token.lexeme word = true := by
  cases tokens : cursor.rest with
  | nil =>
    have empty : cursor.lexeme = "" := by
      simp [Cursor.lexeme, Cursor.current, Cursor.peek, tokens, Token.eof]
    rw [Cursor.atWord?, empty, Text.sameIgnoringCase, beq_iff_eq] at stands
    exact absurd (List.map_eq_nil_iff.mp stands.symm) some
  | cons token rest =>
    have current : cursor.current = token := by
      simp [Cursor.current, Cursor.peek, tokens]
    refine ⟨token, rest, rfl, current, ?_⟩
    rw [← current]
    exact stands

theorem moves_advance {cursor : Cursor} {token : Token} {rest : List Token}
    (tokens : cursor.rest = token :: rest) : Moves cursor [token] cursor.advance := by
  have advanced : cursor.advance = { cursor with rest, previous := token.span } := by
    simp only [Cursor.advance, tokens]
  rw [advanced]
  exact ⟨rfl, tokens, rfl⟩

theorem rest_advance (cursor : Cursor) : cursor.advance.rest = cursor.rest.tail := by
  unfold Cursor.advance
  split
  · next none => rw [none, List.tail_nil]
  · next tokens => rw [tokens, List.tail_cons]

theorem parameters_advance (cursor : Cursor) : cursor.advance.parameters = cursor.parameters := by
  unfold Cursor.advance
  split <;> rfl

/-- Counting a placeholder and passing a token do not depend on each other. -/
theorem advance_countParameter (cursor : Cursor) :
    cursor.countParameter.advance = cursor.advance.countParameter := by
  cases tokens : cursor.rest <;> simp [Cursor.advance, Cursor.countParameter, tokens]

/-- A token that is no placeholder is passed without counting. -/
theorem passes_advance {cursor : Cursor} {kind : TokenKind} (stands : cursor.kind = kind)
    (inside : kind ≠ .endOfInput) (uncounted : kind ≠ .symbol .question) :
    ∃ token, token.kind = kind ∧ cursor.current = token ∧ Passes cursor [token] cursor.advance := by
  obtain ⟨token, rest, tokens, named, current⟩ := exists_token stands inside
  refine ⟨token, named, current, moves_advance tokens, ?_⟩
  have none : Token.placeholders [token] = 0 := by
    simpa [Token.placeholders, named] using uncounted
  rw [parameters_advance, none, Nat.add_zero]

/-- A placeholder is passed with counting it. -/
theorem passes_placeholder {cursor : Cursor} (stands : cursor.kind = .symbol .question) :
    ∃ token, token.kind = .symbol .question ∧ cursor.current = token ∧
      Passes cursor [token] cursor.advance.countParameter := by
  obtain ⟨token, rest, tokens, named, current⟩ := exists_token stands (by simp)
  have moves := moves_advance tokens
  refine ⟨token, named, current, ⟨moves.text, moves.rest, moves.previous⟩, ?_⟩
  change cursor.advance.parameters + 1 = _
  simp [parameters_advance, Token.placeholders, named]

theorem current_of_cons {cursor : Cursor} {token : Token} {rest : List Token}
    (tokens : cursor.rest = token :: rest) : cursor.current = token := by
  simp [Cursor.current, Cursor.peek, tokens]

/-- Up to one token is passed, none at the end of the input. -/
theorem advance_cases (cursor : Cursor) : (cursor.rest = [] ∧ cursor.advance = cursor) ∨
    ∃ token, cursor.current = token ∧ Moves cursor [token] cursor.advance := by
  cases tokens : cursor.rest with
  | nil => exact .inl ⟨rfl, by rw [Cursor.advance, tokens]⟩
  | cons token rest => exact .inr ⟨token, current_of_cons tokens, moves_advance tokens⟩

/-- Behind a token that is no placeholder stands the cursor that advances. -/
theorem Passes.eq_advance {before after : Cursor} {token : Token}
    (passes : Passes before [token] after) (uncounted : token.kind ≠ .symbol .question) :
    after = before.advance :=
  passes.unique
    ⟨moves_advance passes.rest, by simp [parameters_advance, Token.placeholders, uncounted]⟩

/-- Behind a placeholder one more is counted. -/
theorem Passes.eq_counted {before after : Cursor} {token : Token}
    (passes : Passes before [token] after) (counted : token.kind = .symbol .question) :
    after = before.advance.countParameter := by
  have moves := moves_advance passes.rest
  refine passes.unique ⟨⟨moves.text, moves.rest, moves.previous⟩, ?_⟩
  change before.advance.parameters + 1 = _
  simp [parameters_advance, Token.placeholders, counted]

theorem at?_symbol {cursor : Cursor} {mark : Symbol} :
    cursor.at? (.symbol mark) = true ↔ cursor.kind = .symbol mark := by
  unfold Cursor.at? TokenKind.sameShape
  split <;> simp_all

theorem atKeyword?_iff {cursor : Cursor} {words : List Keyword} :
    cursor.atKeyword? words = true ↔ ∃ word ∈ words, cursor.kind = .keyword word := by
  unfold Cursor.atKeyword?
  split
  · simp_all
  · simp_all

theorem atSymbolOrEnd_iff {cursor : Cursor} :
    cursor.atSymbolOrEnd = true ↔ cursor.kind.isSymbol = true ∨ cursor.kind = .endOfInput := by
  unfold Cursor.atSymbolOrEnd Cursor.atEnd Token.isEof
  rw [Bool.or_eq_true, beq_iff_eq]
  rfl

theorem atSymbolOrEnd_eq_false {cursor : Cursor} :
    cursor.atSymbolOrEnd = false ↔ cursor.kind.isSymbol = false ∧ cursor.kind ≠ .endOfInput := by
  rw [← Bool.not_eq_true, atSymbolOrEnd_iff, not_or, Bool.not_eq_true]

end Cursor

namespace Scan
open Step Cursor

variable {α β : Type}

@[simp] theorem yields_look {property : Cursor → α} {before after : Cursor} {answer : α} :
    Yields (look property) before answer after ↔ answer = property before ∧ after = before := by
  constructor
  · intro answers
    cases answers
    exact ⟨rfl, rfl⟩
  · rintro ⟨rfl, rfl⟩
    rfl

@[simp] theorem yields_advance {before after : Cursor} {answer : Unit} :
    Yields advance before answer after ↔ after = before.advance := by
  constructor
  · intro answers
    cases answers
    rfl
  · rintro rfl
    rfl

/-- A scan behind a look at the cursor runs with what was seen. -/
theorem yields_look_bind {property : Cursor → α} {next : α → Scan β} {before after : Cursor}
    {answer : β} : Yields (look property >>= next) before answer after ↔
      Yields (next (property before)) before answer after :=
  Iff.rfl

/-- A scan behind a passed token runs at the next one. -/
theorem yields_advance_bind {next : Unit → Scan β} {before after : Cursor} {answer : β} :
    Yields (advance >>= next) before answer after ↔
      Yields (next ()) before.advance answer after :=
  Iff.rfl

/-- A scan behind a change of the cursor runs on the changed one. -/
theorem yields_modify_bind {update : Cursor → Cursor} {next : PUnit → Scan β}
    {before after : Cursor} {answer : β} :
    Yields ((modify update : Scan PUnit) >>= next) before answer after ↔
      Yields (next ⟨⟩) (update before) answer after :=
  Iff.rfl

@[simp] theorem not_yields_fail {expected : Expectation} {before after : Cursor} {answer : α} :
    ¬ Yields (fail expected) before answer after := by
  intro answers
  cases answers

theorem yields_skipWhen {property : Cursor → Bool} {before after : Cursor} {answer : Bool} :
    Yields (skipWhen property) before answer after ↔
      (property before = true ∧ answer = true ∧ after = before.advance) ∨
        (property before = false ∧ answer = false ∧ before = after) := by
  unfold skipWhen
  rw [yields_look_bind, yields_ite, yields_advance_bind]
  cases property before <;> simp [eq_comm]

/-- A symbol is passed exactly where it stands. -/
theorem skipSymbol_cases {mark : Symbol} {before after : Cursor} {answer : Bool}
    (answers : Yields (skipSymbol mark) before answer after) (uncounted : mark ≠ .question) :
    (answer = true ∧ ∃ token, token.kind = .symbol mark ∧ Passes before [token] after) ∨
      (answer = false ∧ before.kind ≠ .symbol mark ∧ before = after) := by
  rcases yields_skipWhen.mp answers with ⟨stands, rfl, rfl⟩ | ⟨elsewhere, rfl, rfl⟩
  · obtain ⟨token, named, _, passes⟩ :=
      passes_advance (at?_symbol.mp stands) (by simp) (by simpa using uncounted)
    exact .inl ⟨rfl, token, named, passes⟩
  · exact .inr ⟨rfl, fun stands => by simp [at?_symbol.mpr stands] at elsewhere, rfl⟩

/-- A keyword of a list is passed exactly where one stands. -/
theorem skipAnyKeyword_cases {words : List Keyword} {before after : Cursor} {answer : Bool}
    (answers : Yields (skipAnyKeyword words) before answer after) :
    (answer = true ∧ ∃ word ∈ words, ∃ token, token.kind = .keyword word ∧
        Passes before [token] after) ∨
      (answer = false ∧ (∀ word ∈ words, before.kind ≠ .keyword word) ∧ before = after) := by
  rcases yields_skipWhen.mp answers with ⟨stands, rfl, rfl⟩ | ⟨elsewhere, rfl, rfl⟩
  · obtain ⟨word, member, named⟩ := atKeyword?_iff.mp stands
    obtain ⟨token, kind, _, passes⟩ := passes_advance named (by simp) (by simp)
    exact .inl ⟨rfl, word, member, token, kind, passes⟩
  · refine .inr ⟨rfl, fun word member stands => ?_, rfl⟩
    simp [atKeyword?_iff.mpr ⟨word, member, stands⟩] at elsewhere

/-- A keyword is passed exactly where it stands. -/
theorem skipKeyword_cases {word : Keyword} {before after : Cursor} {answer : Bool}
    (answers : Yields (skipKeyword word) before answer after) :
    (answer = true ∧ ∃ token, token.kind = .keyword word ∧ Passes before [token] after) ∨
      (answer = false ∧ before.kind ≠ .keyword word ∧ before = after) := by
  rcases skipAnyKeyword_cases answers with ⟨rfl, _, member, token, kind, passes⟩ | ⟨rfl, none, rfl⟩
  · rw [List.mem_singleton.mp member] at kind
    exact .inl ⟨rfl, token, kind, passes⟩
  · exact .inr ⟨rfl, none word (List.mem_singleton.mpr rfl), rfl⟩

theorem expectSymbol_passes {mark : Symbol} {before after : Cursor} {answer : Unit}
    (answers : Yields (expectSymbol mark) before answer after) (uncounted : mark ≠ .question) :
    ∃ token, token.kind = .symbol mark ∧ Passes before [token] after := by
  obtain ⟨skipped, between, first, rest⟩ := yields_bind.mp answers
  rcases skipSymbol_cases first uncounted with ⟨rfl, found⟩ | ⟨rfl, _, rfl⟩
  · obtain ⟨_, rfl⟩ := yields_pure.mp rest
    exact found
  · exact absurd rest not_yields_fail

theorem expectKeyword_passes {word : Keyword} {before after : Cursor} {answer : Unit}
    (answers : Yields (expectKeyword word) before answer after) :
    ∃ token, token.kind = .keyword word ∧ Passes before [token] after := by
  obtain ⟨skipped, between, first, rest⟩ := yields_bind.mp answers
  rcases skipKeyword_cases first with ⟨rfl, found⟩ | ⟨rfl, _, rfl⟩
  · obtain ⟨_, rfl⟩ := yields_pure.mp rest
    exact found
  · exact absurd rest not_yields_fail

theorem expectKeyword_answers {word : Keyword} {before after : Cursor} {token : Token}
    (is : token.kind = .keyword word) (passes : Passes before [token] after) :
    Yields (expectKeyword word) before () after := by
  have stands : before.atKeyword? [word] = true :=
    atKeyword?_iff.mpr ⟨word, by simp, by rw [kind, current_of_cons passes.rest, is]⟩
  rw [passes.eq_advance (by simp [is])]
  exact yields_bind.mpr ⟨true, _, yields_skipWhen.mpr (.inl ⟨stands, rfl, rfl⟩),
    yields_pure.mpr ⟨rfl, rfl⟩⟩

/-- A placeholder is passed and answers the number of those before it. -/
theorem parameter_passes {before after : Cursor} {index : Nat}
    (answers : Yields parameter before index after) :
    index = before.parameters ∧
      ∃ token, token.kind = .symbol .question ∧ Passes before [token] after := by
  obtain ⟨_, between, expected, rest⟩ := yields_bind.mp answers
  obtain ⟨skipped, _, first, second⟩ := yields_bind.mp expected
  rcases yields_skipWhen.mp first with ⟨stands, rfl, rfl⟩ | ⟨_, rfl, rfl⟩
  · obtain ⟨_, rfl⟩ := yields_pure.mp second
    simp only [yields_look_bind, yields_modify_bind, yields_pure] at rest
    obtain ⟨rfl, rfl⟩ := rest
    obtain ⟨token, named, _, passes⟩ := passes_placeholder (at?_symbol.mp stands)
    exact ⟨parameters_advance before, token, named, passes⟩
  · exact absurd second not_yields_fail

end Scan

end SelectRouting
