import SelectRouting.Proofs.KeyReferences

/-!
# What stands behind the words that introduce a part

`AS` introduces an alias, the point behind a schema the name of a table, `USING` and `DISTINCT ON` a
group. What stands behind these words in an accepted query is read off its parts, together with the
balance of its parentheses (`Statement.introducers_followed`).
-/

namespace SelectRouting

open Token (AreLexed IsNested frontKind)

/-- Where the tokens of an alias begin with `AS`, the name that is given stands directly behind it and
is no symbol. Where a symbol of the kind `next` or nothing stands behind `AS`, no name is given. -/
def Token.NamesBehindAs (named : List Token) (next : TokenKind) (given : Option String) : Prop :=
  ∀ word behind, named = word :: behind → word.kind = .keyword .AS →
    (∃ token, behind = [token] ∧ token.kind.isSymbol = false ∧
        given = some (Text.stripQuotes token.lexeme)) ∨
      (behind = [] ∧ (next.isSymbol = true ∨ next = .endOfInput) ∧ given = none)

theorem Scan.AliasTokens.namesBehindAs {named : List Token} {next : TokenKind}
    {given : Option String} (are : AliasTokens named given next) :
    Token.NamesBehindAs named next given := by
  rintro word behind same isWord
  cases are with
  | absent => cases same
  | dangling _ ends =>
    cases same
    exact .inr ⟨rfl, ends, rfl⟩
  | introduced _ noSymbol =>
    cases same
    exact .inl ⟨_, rfl, noSymbol, rfl⟩
  | bare reads =>
    cases same
    rw [isWord] at reads
    cases reads

theorem Scan.AliasTokens.isNested {named : List Token} {next : TokenKind} {given : Option String}
    (are : AliasTokens named given next) : IsNested named :=
  .of_other fun token inside => ⟨are.kind_ne _ token inside, are.kind_ne _ token inside⟩

/-- A keyword is no parenthesis. -/
theorem Token.IsNested.of_keyword {tokens : List Token}
    (keywords : ∀ token ∈ tokens, ∃ word, token.kind = .keyword word) : IsNested tokens := by
  refine .of_other fun token inside => ?_
  obtain ⟨word, is⟩ := keywords token inside
  simp [is]

theorem Token.IsGroup.isNested {tokens : List Token} (group : IsGroup tokens) : IsNested tokens :=
  (Balanced.of_group group).isNested

namespace Projected
variable {item : Projected} {value : Item} {text : String} {rest : List Token} {token : Token}

/-- Where `AS` stands in an item, the name behind it is the alias that the statement gives the item. -/
def Introduces (rest : List Token) (entry : Projected × Item) : Prop :=
  Token.NamesBehindAs entry.1.named (frontKind rest) entry.2.aliasName

/-- The alias that stands apart from the expression is that of the item. -/
theorem Tells.aliasName (tells : item.Tells text value) (some : item.named ≠ []) :
    value.aliasName = Token.aliasIn item.named := by
  obtain ⟨_, gives⟩ := tells
  cases gives with
  | star | plain => rfl
  | call _ _ _ _ _ _ named => exact named
  | aliased _ unnamed => exact absurd unnamed some

theorem Tells.introduces (tells : item.Tells text value) (fits : item.Fits rest) :
    Introduces rest (item, value) := by
  intro word behind same isWord
  rcases fits.named with none | are
  · exact absurd (none.symm.trans same) nofun
  · rw [tells.aliasName (by rw [same]; exact nofun)]
    exact are.namesBehindAs word behind same isWord

/-- The call or the star that begins an item has neither a parenthesis that is open nor `AS` outside
of parentheses. -/
theorem Fits.call_nested (fits : item.Fits rest) (lexed : AreLexed item.call) :
    IsNested item.call ∧ ∀ token ∈ Token.outside 0 item.call, token.kind ≠ .keyword .AS := by
  rcases fits.call with none | ⟨⟨star, is, stands⟩, _⟩ | ⟨function, group, word, is, named, aggregate, grouped⟩
  · rw [none]
    exact ⟨.nil, by simp⟩
  · have isLexed := lexed star (by simp [is])
    have noMark (mark : Symbol) (other : mark ≠ .star) : star.kind ≠ .symbol mark := by
      rcases stands with symbol | quoted
      · simpa [symbol] using other.symm
      · exact fun is => other (isLexed.eq_star_of_symbol is quoted)
    have noWord : star.kind ≠ .keyword .AS := by
      rcases stands with symbol | quoted
      · simp [symbol]
      · exact fun is => isLexed.ne_star_of_keyword is quoted
    rw [is]
    exact ⟨.of_other (by simp [noMark]), by simp [Token.outside, noWord]⟩
  · have name : IsNested [function] := .of_keyword (by simp [named])
    rw [is, ← List.singleton_append]
    refine ⟨name.append grouped.isNested, fun token stands => ?_⟩
    rcases (Token.mem_outside_append name).mp stands with stands | stands
    · obtain rfl : token = function := by simpa [Token.outside] using stands
      rintro isWord
      rw [named] at isWord
      cases isWord
      cases aggregate
    · simp [grouped.outside token stands]

theorem Fits.named_nested (fits : item.Fits rest) : IsNested item.named := by
  rcases fits.named with none | named
  · rw [none]
    exact .nil
  · exact named.isNested

/-- The parentheses of an item are balanced, and outside of them `AS` stands only in its alias. -/
theorem Fits.nested (fits : item.Fits rest) (guarded : item.Guarded) (lexed : AreLexed item.tokens)
    (commas : ∀ token ∈ item.comma, token.kind = .symbol .comma) :
    IsNested item.tokens ∧
      ∀ token ∈ Token.outside 0 item.tokens, token.kind = .keyword .AS → token ∈ item.named := by
  have comma : IsNested item.comma := .of_other fun token inside => by simp [commas token inside]
  obtain ⟨call, noWord⟩ := fits.call_nested lexed.left.left.right
  have text := fits.text.isNested
  refine ⟨((comma.append call).append text).append fits.named_nested, fun token stands is => ?_⟩
  rcases (Token.mem_outside_append ((comma.append call).append text)).mp stands with stands | stands
  · rcases (Token.mem_outside_append (comma.append call)).mp stands with stands | stands
    · rcases (Token.mem_outside_append comma).mp stands with stands | stands
      · simp [commas token ((Token.outside_sublist 0 _).subset stands)] at is
      · exact absurd is (noWord token stands)
    · exact absurd is (guarded.words token stands .AS (by decide))
  · exact (Token.outside_sublist 0 _).subset stands

/-- In the list of an accepted query each item has the alias that it introduces. -/
theorem introduces_items {items : List Projected} {values : List Item}
    (fit : Token.Fit Projected.tokens Fits items rest)
    (tell : List.Forall₂ (Tells text) items values) :
    Token.Fit (fun entry : Projected × Item => entry.1.tokens) Introduces (items.zip values) rest := by
  induction tell with
  | nil => trivial
  | @cons item value items values tells told ih =>
    rw [List.zip_cons_cons]
    refine ⟨?_, ih fit.2⟩
    have same : (items.zip values).flatMap (fun entry => entry.1.tokens) = items.flatMap tokens := by
      rw [← List.flatMap_map, List.map_fst_zip told.length_eq.le]
    rw [same]
    exact tells.introduces fit.1

end Projected

namespace Equation

theorem Fits.isNested {equation : Equation} {rest : List Token} (fits : equation.Fits rest) :
    IsNested equation.tokens := by
  have word : IsNested [equation.word] := by
    refine .of_keyword fun token inside => ?_
    rw [List.mem_singleton.mp inside]
    exact fits.word.elim (⟨_, ·⟩) (⟨_, ·⟩)
  have sign : IsNested [equation.sign] := .of_other (by simp [fits.sign])
  exact (word.append fits.left.balanced.isNested).append (sign.append fits.right.balanced.isNested)

end Equation

namespace Source
variable {source : Source} {rest : List Token}

/-- In a table `AS` stands only in its alias, and directly behind it the name that is given. Behind
`USING` stands the group of the columns, or no parenthesis. -/
structure Introduces (rest : List Token) (source : Source) : Prop where
  words : ∀ token ∈ source.introducer ++ source.schema ++ source.routed, token.kind ≠ .keyword .AS
  named : Token.NamesBehindAs source.named (frontKind (source.condition ++ rest))
    (Token.aliasIn source.named)
  columns : source.columns = [] ∨ ∃ word group, source.columns = word :: group ∧
    word.kind = .keyword .USING ∧
      (Token.IsGroup group ∨ (group = [] ∧ frontKind rest ≠ .symbol .leftParen))

/-- The words before a table are neither `AS` nor parentheses. -/
theorem Fits.introducer_cases (fits : source.Fits rest) {token : Token}
    (inside : token ∈ source.introducer) :
    token.kind ≠ .keyword .AS ∧ token.kind ≠ .symbol .leftParen ∧
      token.kind ≠ .symbol .rightParen :=
  fits.kind_introducer (P := fun kind => kind ≠ .keyword .AS ∧ kind ≠ .symbol .leftParen ∧
    kind ≠ .symbol .rightParen) (by decide) inside

/-- The name of a table and of its schema are names, with a point between them. -/
theorem IsNamed.mem_cases (named : source.IsNamed) {token : Token}
    (inside : token ∈ source.schema ++ source.routed) :
    token.kind.isIdentifier = true ∨ token.kind = .symbol .dot := by
  rcases named with ⟨none, name, is, identifier⟩ | ⟨schema, point, are, identifier, isPoint, _⟩
  · obtain rfl : token = name := by simpa [none, routed, is] using inside
    exact .inl identifier
  · rcases (by simpa [routed, are] using inside : token = schema ∨ token = point) with rfl | rfl
    · exact .inl identifier
    · exact .inr isPoint

theorem Fits.introduces (fits : source.Fits rest) (noOpening : frontKind rest ≠ .symbol .leftParen) :
    source.Introduces rest := by
  refine ⟨fun token inside is => ?_, fits.named.namesBehindAs, ?_⟩
  · rw [List.append_assoc] at inside
    rcases List.mem_append.mp inside with inside | inside
    · exact (fits.introducer_cases inside).1 is
    · have cases := fits.name.mem_cases inside
      simp [is, TokenKind.isIdentifier] at cases
  · rcases fits.columns with none | ⟨word, group, are, is, _, grouped⟩
    · exact .inl none
    · exact .inr ⟨word, group, are, is, grouped.symm.imp_right fun none => ⟨none, noOpening⟩⟩

/-- The parentheses of a table and its condition are balanced, unless its name is one. -/
theorem Fits.isNested (fits : source.Fits rest) (name : IsNested source.name) :
    IsNested source.tokens := by
  have introducer : IsNested source.introducer :=
    .of_other fun token inside => (fits.introducer_cases inside).2
  have schema : IsNested source.schema := by
    refine .of_other fun token inside => ?_
    have cases := fits.name.mem_cases (List.mem_append_left _ inside)
    constructor <;> rintro is <;> simp [is, TokenKind.isIdentifier] at cases
  have equations : IsNested (source.equations.flatMap Equation.tokens) := by
    refine .flatMap fun equation inside => ?_
    obtain ⟨_, fits⟩ := Token.Fit.of_mem fits.equations inside
    exact fits.isNested
  have columns : IsNested source.columns := by
    rcases fits.columns with none | ⟨word, group, are, is, _, grouped⟩
    · rw [none]
      exact .nil
    · have word : IsNested [word] := .of_keyword (by simp [is])
      rw [are]
      refine word.append ?_
      rcases grouped with rfl | grouped
      · exact .nil
      · exact grouped.isNested
  exact (((introducer.append schema).append name).append fits.named.isNested).append
    (equations.append columns)

/-- The front of a table is no parenthesis. -/
theorem Fits.frontKind_ne_leftParen (fits : source.Fits rest) :
    frontKind source.tokens ≠ .symbol .leftParen := by
  obtain ⟨token, others, is⟩ := List.exists_cons_of_ne_nil fits.introducer_ne_nil
  rw [tokens, is]
  exact (fits.introducer_cases (by simp [is])).2.1

/-- In the tables of an accepted query each word introduces what belongs to it. -/
theorem introduces_sources {sources : List Source} (fit : Token.Fit Source.tokens Fits sources rest)
    (noOpening : frontKind rest ≠ .symbol .leftParen) :
    Token.Fit Source.tokens Introduces sources rest := by
  induction sources with
  | nil => trivial
  | cons source sources ih =>
    refine ⟨Fits.introduces fit.1 (Token.frontKind_flatMap_ne (fun other inside => ?_) noOpening),
      ih fit.2⟩
    obtain ⟨_, fits⟩ := Token.Fit.of_mem fit.2 inside
    exact fits.frontKind_ne_leftParen

end Source

theorem Piece.Fits.isNested {piece : Piece} {rest : List Token} (fits : piece.Fits rest) :
    IsNested piece.tokens := by
  cases piece with
  | words tokens =>
    refine .of_other fun token inside => ?_
    rcases fits token inside with is | ⟨word, _, is⟩ <;> simp [is]
  | expression phrases => exact fits.2.2.1.isNested

namespace Query
variable {query : Query} {dialect : Dialect}

/-- What stands behind the words of a query that introduce a part, and the balance of its
parentheses. -/
structure Introduces (query : Query) (statement : Statement) : Prop where
  /-- The parentheses are balanced where none stands directly behind the point of a schema. -/
  nested : (∀ token ∈ query.sources.flatMap Source.name,
      token.kind ≠ .symbol .leftParen ∧ token.kind ≠ .symbol .rightParen) →
    IsNested query.tokens
  /-- In the projection list `AS` stands outside of parentheses only in the alias of an item. -/
  words : ∀ token ∈ Token.outside 0 query.projection, token.kind = .keyword .AS →
    ∃ item ∈ query.items, token ∈ item.named
  length : query.items.length = statement.items.length
  /-- Behind `AS` stands the alias of an item. -/
  items : Token.Fit (fun entry : Projected × Item => entry.1.tokens) Projected.Introduces
    (query.items.zip statement.items) query.behind
  tables : statement.tables = query.tables
  /-- Behind `AS` stands the alias of a table, and behind `USING` the group of its columns. -/
  sources : Token.Fit Source.tokens Source.Introduces query.sources
    (query.pieces.flatMap Piece.tokens ++ query.closing)

/-- The commas of the items. -/
theorem Fits.comma (fits : query.Fits dialect) :
    ∀ item ∈ query.items, ∀ token ∈ item.comma, token.kind = .symbol .comma := by
  obtain ⟨first, rest, items, noComma, commas⟩ := fits.commas
  intro item inside token member
  rw [items] at inside
  rcases List.mem_cons.mp inside with rfl | inside
  · rw [noComma] at member
    cases member
  · obtain ⟨comma, is, kind⟩ := commas item inside
    rw [is, List.mem_singleton] at member
    rwa [member]

theorem Fits.nested_items (fits : query.Fits dialect) (guarded : query.Guarded)
    (lexed : AreLexed query.projection) : ∀ item ∈ query.items, IsNested item.tokens ∧
      ∀ token ∈ Token.outside 0 item.tokens, token.kind = .keyword .AS → token ∈ item.named := by
  intro item inside
  obtain ⟨_, itemFits⟩ := Token.Fit.of_mem fits.items inside
  exact itemFits.nested (guarded.items item inside) (lexed.of_mem_flatMap inside)
    (fits.comma item inside)

/-- The parentheses of a query are balanced when none of them stands in the place of a name. -/
theorem Fits.isNested (fits : query.Fits dialect) (guarded : query.Guarded)
    (lexed : AreLexed query.projection)
    (names : ∀ token ∈ query.sources.flatMap Source.name,
      token.kind ≠ .symbol .leftParen ∧ token.kind ≠ .symbol .rightParen) :
    IsNested query.tokens := by
  have distinctOn : IsNested query.distinctOn := by
    rcases fits.distinctOn with none | ⟨_, grouped, _⟩
    · rw [none]
      exact .nil
    · exact grouped.isNested
  have projection : IsNested query.projection :=
    .flatMap fun item inside => (fits.nested_items guarded lexed item inside).1
  have sources : IsNested (query.sources.flatMap Source.tokens) := by
    refine .flatMap fun source inside => ?_
    obtain ⟨_, sourceFits⟩ := Token.Fit.of_mem fits.sources inside
    exact sourceFits.isNested
      (.of_other fun token member => names token (List.mem_flatMap.mpr ⟨source, inside, member⟩))
  have pieces : IsNested (query.pieces.flatMap Piece.tokens) := by
    refine .flatMap fun piece inside => ?_
    obtain ⟨_, pieceFits⟩ := Token.Fit.of_mem fits.pieces inside
    exact pieceFits.isNested
  have closing : IsNested query.closing := .of_other fun token inside =>
    ⟨(guarded.closing token inside).noOpening, (guarded.closing token inside).noClosing⟩
  exact (((IsNested.of_keyword fits.opening).append distinctOn).append projection).append
    ((sources.append pieces).append closing)

theorem Describes.introduces {text : String} {statement : Statement}
    (describes : query.Describes dialect text statement) : query.Introduces statement := by
  have fits := describes.fits
  have tell := describes.items_told
  have lexed : AreLexed query.projection := by
    have whole := Token.areLexed_list text
    rw [describes.tokens] at whole
    exact whole.left.right
  have nested := fits.nested_items describes.guarded lexed
  refine ⟨fits.isNested describes.guarded lexed, fun token stands is => ?_, tell.length_eq,
    Projected.introduces_items fits.items tell, describes.tables, ?_⟩
  · obtain ⟨item, inside, stands⟩ :=
      (Token.mem_outside_flatMap fun item inside => (nested item inside).1).mp stands
    exact ⟨item, inside, (nested item inside).2 token stands is⟩
  · refine Source.introduces_sources fits.sources fun opening => ?_
    rcases Piece.frontKind_of_clauses describes.ordered.clauses query.closing with same | ⟨word, is⟩
    · rw [opening] at same
      have front : frontKind query.closing ≠ .symbol .leftParen := by
        rw [← List.append_nil query.closing]
        exact Token.frontKind_ne (fun token inside => (describes.guarded.closing token inside).noOpening)
          (by simp)
      exact front same.symm
    · rw [opening] at is
      cases is

end Query

namespace Statement

end Statement

end SelectRouting
