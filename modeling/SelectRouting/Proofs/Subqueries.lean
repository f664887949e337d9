import SelectRouting.Proofs.QueryFronts
import SelectRouting.Proofs.QueryPassage

/-!
# Where a subquery passes

A subquery begins with a parenthesis directly before `SELECT`. In a text that is accepted it begins
only in a group that is passed up to its closing parenthesis and not looked into
(`Query.verbatim`); everywhere else the text is rejected (`Statement.subqueries_verbatim`). Such a
group can stand in each accepted text, so not every subquery is rejected
(`Statement.subquery_accepted`).
-/

namespace SelectRouting

open Token (AreLexed frontKind)

/-- Words and literals are no parentheses. -/
theorem TokenKind.ne_leftParen_of_isWritten {kind : TokenKind} (written : kind.isWritten = true) :
    kind ≠ .symbol .leftParen := by
  rintro rfl
  cases written

namespace Phrase
variable {phrase : Phrase} {phrases : List Phrase} {rest : List Token}

/-- The group behind the type of a cast. -/
def verbatim : Phrase → List Token
  | .cast _ _ arguments => arguments
  | _ => []

theorem noOpening_joined {owners : List (Token × Token)} {last : Token} (dotted : Dotted owners)
    (noOpening : last.kind ≠ .symbol .leftParen) :
    ∀ token ∈ joined owners ++ [last], token.kind ≠ .symbol .leftParen := by
  intro token member
  rcases List.mem_append.mp member with inside | inside
  · obtain ⟨part, among, of⟩ := List.mem_flatMap.mp inside
    obtain ⟨written, point⟩ := dotted part among
    rcases List.mem_pair.mp of with rfl | rfl
    · exact TokenKind.ne_leftParen_of_isWritten written
    · simp [point]
  · rw [List.mem_singleton.mp inside]
    exact noOpening

theorem mem_verbatim {token : Token} (fits : phrase.Fits rest) (guarded : phrase.Guarded)
    (member : token ∈ Token.subqueries phrase.tokens) : token ∈ phrase.verbatim := by
  have none (noOpening : ∀ other ∈ phrase.tokens, other.kind ≠ .symbol .leftParen) :
      token ∈ phrase.verbatim := by
    rw [Token.subqueries_eq_nil noOpening] at member
    cases member
  cases phrase with
  | mark other | word other =>
    change token ∈ Token.subqueryBefore [] other ++ [] at member
    rw [Token.subqueryBefore_of_front (by simp)] at member
    cases member
  | «variable» marks written =>
    apply none
    intro other inside
    rcases List.mem_append.mp inside with sign | last
    · rcases fits.2.1 other sign with is | is <;> simp [is]
    · rw [List.mem_singleton.mp last]
      exact TokenKind.ne_leftParen_of_isWritten fits.2.2
  | name owners last =>
    exact none (noOpening_joined fits.1 (TokenKind.ne_leftParen_of_isWritten fits.2.1))
  | columns owners star => exact none (noOpening_joined fits.2.1 (by simp [fits.2.2.2]))
  | call function arguments =>
    have noOpening : function.kind ≠ .symbol .leftParen := by
      intro opening
      have starts := fits.1
      rw [opening] at starts
      cases starts
    have inside : Token.subqueries arguments = [] := guarded
    rw [tokens, Token.subqueries_cons_of_kind noOpening, inside] at member
    cases member
  | cast sign type arguments =>
    have noType := TokenKind.ne_leftParen_of_isWritten fits.2.1
    rw [tokens, Token.subqueries_cons_of_kind (by simp [fits.1]),
      Token.subqueries_cons_of_kind noType] at member
    exact (Token.subqueries_sublist arguments).subset member

/-- In an expression only the group behind the type of a cast is not looked into. -/
theorem mem_verbatim_text {token : Token} (fit : Fit phrases rest)
    (guarded : ∀ phrase ∈ phrases, phrase.Guarded) (lexed : AreLexed (text phrases))
    (member : token ∈ Token.subqueries (text phrases)) : token ∈ phrases.flatMap verbatim := by
  have noSelect : ∀ phrase ∈ phrases, frontKind phrase.tokens ≠ .keyword .SELECT := by
    intro phrase inside
    obtain ⟨_, fits⟩ := Token.Fit.of_mem fit inside
    exact frontKind_tokens_ne (.inr rfl) fits (lexed.of_mem_flatMap inside)
  rw [text, Token.subqueries_flatMap noSelect] at member
  obtain ⟨phrase, inside, member⟩ := List.mem_flatMap.mp member
  obtain ⟨_, fits⟩ := Token.Fit.of_mem fit inside
  exact List.mem_flatMap.mpr ⟨phrase, inside, mem_verbatim fits (guarded phrase inside) member⟩

end Phrase

namespace Projected
variable {item : Projected} {rest : List Token} {token : Token}

/-- Of an item only the call that begins it is not looked into. -/
theorem mem_call (fits : item.Fits rest) (guarded : item.Guarded)
    (comma : ∀ token ∈ item.comma, token.kind = .symbol .comma)
    (member : token ∈ Token.subqueries item.tokens) : token ∈ item.call := by
  have named : Token.subqueries item.named = [] ∧ frontKind item.named ≠ .keyword .SELECT := by
    rcases fits.named with none | named
    · rw [none]
      exact ⟨rfl, by simp⟩
    · exact ⟨Token.subqueries_eq_nil (named.kind_ne _), named.frontKind_ne (.inr rfl)⟩
  have behindComma (others : List Token) :
      Token.subqueries (item.comma ++ others) = Token.subqueries others := by
    have noOpening : ∀ token ∈ item.comma, token.kind ≠ .symbol .leftParen := by
      intro token inside
      simp [comma token inside]
    rw [Token.subqueries_append_of_last fun token last => noOpening token (List.mem_of_getLast? last),
      Token.subqueries_eq_nil noOpening, List.nil_append]
  have behindCall : Token.subqueries (item.call ++ (item.text ++ item.named)) =
      Token.subqueries item.call ++ Token.subqueries (item.text ++ item.named) := by
    rcases fits.call with none | ⟨_, none⟩ | ⟨function, group, word, is, _, _, grouped⟩
    · rw [none]
      rfl
    · rw [none]
      exact Token.subqueries_append named.2
    · apply Token.subqueries_append_of_last
      intro last member
      rw [is, List.getLast?_cons_of_ne_nil (Token.Closing.ne_nil grouped)] at member
      simp [Token.Closing.getLast grouped last member]
  rw [tokens, List.append_assoc, List.append_assoc, behindComma, behindCall,
    Token.subqueries_append named.2, named.1, guarded.subqueries,
    List.append_nil, List.append_nil] at member
  exact (Token.subqueries_sublist item.call).subset member

end Projected

namespace Equation
variable {equation : Equation} {rest : List Token} {token : Token}

/-- The groups in an equation that are not looked into. -/
def verbatim (equation : Equation) : List Token :=
  (equation.left ++ equation.right).flatMap Phrase.verbatim

theorem mem_verbatim (fits : equation.Fits rest) (guarded : equation.Guarded)
    (lexed : AreLexed equation.tokens) (member : token ∈ Token.subqueries equation.tokens) :
    token ∈ equation.verbatim := by
  have noWord : equation.word.kind ≠ .symbol .leftParen := by
    rcases fits.word with is | is <;> simp [is]
  have split : equation.tokens = [equation.word] ++ (Phrase.text equation.left ++
      ([equation.sign] ++ Phrase.text equation.right)) := by
    simp [tokens]
  have noSign : frontKind ([equation.sign] ++ Phrase.text equation.right) ≠ .keyword .SELECT := by
    simp [fits.sign]
  rw [split] at lexed
  rw [tokens, List.cons_append, Token.subqueries_cons_of_kind noWord] at member
  rw [← List.singleton_append, Token.subqueries_append noSign, List.singleton_append,
    Token.subqueries_cons_of_kind (by simp [fits.sign])] at member
  rw [verbatim, List.flatMap_append]
  rcases List.mem_append.mp member with left | right
  · exact List.mem_append_left _ (Phrase.mem_verbatim_text fits.left.fit
      (fun phrase inside => guarded phrase (List.mem_append_left _ inside)) lexed.right.left left)
  · exact List.mem_append_right _ (Phrase.mem_verbatim_text fits.right.fit
      (fun phrase inside => guarded phrase (List.mem_append_right _ inside))
      lexed.right.right.right right)

end Equation

namespace Source
variable {source : Source} {rest : List Token} {token : Token}

/-- The groups in a table that are not looked into: the one behind `USING`, and those in its
equations. -/
def verbatim (source : Source) : List Token :=
  source.equations.flatMap Equation.verbatim ++ source.columns

theorem mem_verbatim_condition (fits : source.Fits rest) (guarded : source.Guarded)
    (lexed : AreLexed source.condition) (member : token ∈ Token.subqueries source.condition) :
    token ∈ source.verbatim := by
  rw [condition, Token.subqueries_append (frontKind_columns_ne (.inr rfl) fits),
    Token.subqueries_flatMap (frontKind_equation_ne (.inr rfl) fits)] at member
  rcases List.mem_append.mp member with on | columns
  · obtain ⟨equation, inside, member⟩ := List.mem_flatMap.mp on
    obtain ⟨_, fits⟩ := Token.Fit.of_mem fits.equations inside
    have among := Equation.mem_verbatim fits (guarded equation inside)
      (lexed.left.of_mem_flatMap inside) member
    exact List.mem_append_left _ (List.mem_flatMap.mpr ⟨equation, inside, among⟩)
  · exact List.mem_append_right _ ((Token.subqueries_sublist source.columns).subset columns)

/-- In front of its condition a table has no group. -/
theorem mem_verbatim (fits : source.Fits rest) (guarded : source.Guarded)
    (lexed : AreLexed source.tokens) (member : token ∈ Token.subqueries source.tokens) :
    token ∈ source.verbatim := by
  have introducer : ∀ token ∈ source.introducer, token.kind ≠ .symbol .leftParen := fun token inside =>
    fits.kind_introducer (P := (· ≠ .symbol .leftParen)) (by decide) inside
  have schema : ∀ token ∈ source.schema, token.kind ≠ .symbol .leftParen := by
    rcases fits.name with ⟨none, _⟩ | ⟨schema, point, are, named, is, _⟩
    · simp [none]
    · rw [are]
      intro token inside
      rcases List.mem_pair.mp inside with rfl | rfl
      · intro opening
        rw [opening] at named
        cases named
      · simp [is]
  have name : Token.subqueries source.name = [] := by
    have single : source.name.length ≤ 1 := by
      rcases fits.name with ⟨_, name, is, _⟩ | ⟨_, _, _, _, _, short⟩
      · simp [is]
      · exact short
    exact Token.subqueries_of_length_le_one single
  have front : frontKind (source.named ++ source.condition) ≠ .keyword .SELECT := by
    by_cases unnamed : source.named = []
    · rw [unnamed]
      exact frontKind_condition_ne (.inr rfl) fits
    · rw [Token.frontKind_append unnamed]
      exact fits.named.frontKind_ne (.inr rfl)
  have whole : source.tokens = (source.introducer ++ source.schema) ++
      (source.name ++ (source.named ++ source.condition)) := by
    simp [tokens]
  have words : ∀ token ∈ source.introducer ++ source.schema, token.kind ≠ .symbol .leftParen :=
    fun token inside => (List.mem_append.mp inside).elim (introducer token) (schema token)
  rw [whole] at lexed
  rw [whole, Token.subqueries_append_of_noOpening words, Token.subqueries_append front, name,
    List.nil_append, Token.subqueries_append_of_noOpening (fits.named.kind_ne _)] at member
  exact mem_verbatim_condition fits guarded lexed.right.right.right member

end Source

namespace Piece
variable {piece : Piece} {rest : List Token} {token : Token}

/-- The groups in a part of the later clauses that are not looked into. -/
def verbatim : Piece → List Token
  | .words _ => []
  | .expression phrases => phrases.flatMap Phrase.verbatim

theorem mem_verbatim (fits : piece.Fits rest) (guarded : piece.Guarded)
    (lexed : AreLexed piece.tokens) (member : token ∈ Token.subqueries piece.tokens) :
    token ∈ piece.verbatim := by
  cases piece with
  | words tokens =>
    have noOpening : ∀ token ∈ tokens, token.kind ≠ .symbol .leftParen := by
      intro token inside
      rcases fits token inside with is | ⟨word, _, is⟩ <;> simp [is]
    rw [Piece.tokens, Token.subqueries_eq_nil noOpening] at member
    cases member
  | expression phrases => exact Phrase.mem_verbatim_text fits.2.1 guarded lexed member

end Piece

namespace Query
variable {query : Query} {dialect : Dialect} {token : Token}

/-- The groups that are passed up to their closing parenthesis and not looked into: the one behind
`DISTINCT ON`, the arguments of the aggregate calls that begin an item, the columns behind `USING`,
and the arguments of the type in a cast. -/
def verbatim (query : Query) : List Token :=
  query.distinctOn ++ query.items.flatMap Projected.call ++ query.sources.flatMap Source.verbatim ++
    query.pieces.flatMap Piece.verbatim

theorem mem_verbatim_projection (fits : query.Fits dialect) (guarded : query.Guarded)
    (member : token ∈ Token.subqueries query.projection) :
    token ∈ query.items.flatMap Projected.call := by
  obtain ⟨first, rest, items, noComma, commas⟩ := fits.commas
  have comma : ∀ item ∈ query.items, ∀ token ∈ item.comma, token.kind = .symbol .comma := by
    intro item inside token member
    rw [items] at inside
    rcases List.mem_cons.mp inside with rfl | inside
    · rw [noComma] at member
      cases member
    · obtain ⟨comma, is, kind⟩ := commas item inside
      rw [is, List.mem_singleton] at member
      rwa [member]
  have front : frontKind (rest.flatMap Projected.tokens) ≠ .keyword .SELECT := by
    rw [← List.append_nil (rest.flatMap Projected.tokens)]
    exact Token.frontKind_flatMap_ne (frontKind_item_ne (.inr rfl) commas) (by simp)
  obtain ⟨item, inside, member⟩ : ∃ item ∈ query.items, token ∈ Token.subqueries item.tokens := by
    rw [projection, items, List.flatMap_cons, Token.subqueries_append front,
      Token.subqueries_flatMap (frontKind_item_ne (.inr rfl) commas)] at member
    rw [items]
    rcases List.mem_append.mp member with member | member
    · exact ⟨first, List.mem_cons_self, member⟩
    · obtain ⟨item, inside, member⟩ := List.mem_flatMap.mp member
      exact ⟨item, List.mem_cons_of_mem _ inside, member⟩
  obtain ⟨_, itemFits⟩ := Token.Fit.of_mem fits.items inside
  exact List.mem_flatMap.mpr ⟨item, inside,
    Projected.mem_call itemFits (guarded.items item inside) (comma item inside) member⟩

theorem mem_verbatim_behind (fits : query.Fits dialect) (guarded : query.Guarded)
    (lexed : AreLexed query.behind) (member : token ∈ Token.subqueries query.behind) :
    token ∈ query.sources.flatMap Source.verbatim ++ query.pieces.flatMap Piece.verbatim := by
  have closing : ∀ token ∈ query.closing, token.kind ≠ .keyword .SELECT :=
    fun token inside => (guarded.closing token inside).noSelect
  have noOpening : ∀ token ∈ query.closing, token.kind ≠ .symbol .leftParen :=
    fun token inside => (guarded.closing token inside).noOpening
  rw [behind, List.append_assoc] at lexed member
  have lexedPieces := lexed.right.left
  rw [Token.subqueries_append (frontKind_clauses_ne (.inr rfl) fits closing lexedPieces),
    Token.subqueries_append (frontKind_closing_ne (.inr rfl) closing),
    Token.subqueries_eq_nil noOpening, List.append_nil,
    Token.subqueries_flatMap (frontKind_source_ne (.inr rfl) fits),
    Token.subqueries_flatMap (frontKind_piece_ne (.inr rfl) fits lexedPieces)] at member
  rcases List.mem_append.mp member with member | member
  · obtain ⟨source, inside, member⟩ := List.mem_flatMap.mp member
    obtain ⟨_, sourceFits⟩ := Token.Fit.of_mem fits.sources inside
    have among := Source.mem_verbatim sourceFits (guarded.sources source inside)
      (lexed.left.of_mem_flatMap inside) member
    exact List.mem_append_left _ (List.mem_flatMap.mpr ⟨source, inside, among⟩)
  · obtain ⟨piece, inside, member⟩ := List.mem_flatMap.mp member
    obtain ⟨_, pieceFits⟩ := Token.Fit.of_mem fits.pieces inside
    have among := Piece.mem_verbatim pieceFits (guarded.pieces piece inside)
      (lexedPieces.of_mem_flatMap inside) member
    exact List.mem_append_right _ (List.mem_flatMap.mpr ⟨piece, inside, among⟩)

/-- No part of the query that is looked at token by token begins a subquery. -/
theorem mem_verbatim (fits : query.Fits dialect) (guarded : query.Guarded)
    (lexed : AreLexed query.tokens) (member : token ∈ Token.subqueries query.tokens) :
    token ∈ query.verbatim := by
  have words : ∀ token ∈ query.opening, token.kind ≠ .symbol .leftParen := by
    intro token inside
    obtain ⟨word, is⟩ := fits.opening token inside
    simp [is]
  have group : Token.subqueries (query.distinctOn ++ (query.projection ++ query.behind)) =
      Token.subqueries query.distinctOn ++ Token.subqueries (query.projection ++ query.behind) := by
    rcases fits.distinctOn with none | ⟨_, group, _⟩
    · rw [none]
      rfl
    · apply Token.subqueries_append_of_last
      intro last member
      simp [Token.Closing.getLast group last member]
  rw [tokens, List.append_assoc, List.append_assoc] at lexed member
  have lexedBehind := lexed.right.right.right
  have front : frontKind query.behind ≠ .keyword .SELECT :=
    frontKind_behind_ne (.inr rfl) fits (fun token inside => (guarded.closing token inside).noSelect)
      lexedBehind
  rw [Token.subqueries_append_of_noOpening words, group, Token.subqueries_append front] at member
  rw [verbatim, List.append_assoc, List.append_assoc]
  rcases List.mem_append.mp member with member | member
  · exact List.mem_append_left _ ((Token.subqueries_sublist query.distinctOn).subset member)
  · apply List.mem_append_right
    rcases List.mem_append.mp member with member | member
    · exact List.mem_append_left _ (mem_verbatim_projection fits guarded member)
    · exact List.mem_append_right _ (mem_verbatim_behind fits guarded lexedBehind member)

end Query

namespace Statement

/-- A text in which a parenthesis stands directly before `SELECT` is rejected, unless each such
parenthesis stands in a group that is passed as it is. -/
theorem subqueries_verbatim {dialect : Dialect} (shipped : dialect ∈ Dialect.shipped) {text : String}
    {statement : Statement} (accepted : ofText dialect text = .ok statement) :
    ∃ query : Query, query.Describes dialect text statement ∧
      ∀ token ∈ Token.subqueries (Token.list text), token ∈ query.verbatim := by
  obtain ⟨query, describes⟩ := exists_query (Dialect.isPlain_of_shipped shipped) accepted
  have lexed := Token.areLexed_list text
  refine ⟨query, describes, fun token member => ?_⟩
  rw [describes.tokens] at lexed member
  exact Query.mem_verbatim describes.fits describes.guarded lexed member

/-- A subquery behind `DISTINCT ON` stands in such a group. -/
theorem subqueries_verbatim_of_distinctOn :
    let text := "SELECT DISTINCT ON ((SELECT 1)) a FROM t"
    let opening : Token := ⟨.symbol .leftParen, 20, "("⟩
    Dialect.postgres ∈ Dialect.shipped ∧ opening ∈ Token.subqueries (Token.list text) ∧
      ∃ statement, ofText .postgres text = .ok statement ∧
        ∃ query : Query, query.Describes .postgres text statement ∧ opening ∈ query.verbatim := by
  have shipped : Dialect.postgres ∈ Dialect.shipped := by simp [Dialect.shipped]
  obtain ⟨accepted, opens⟩ : ofText .postgres "SELECT DISTINCT ON ((SELECT 1)) a FROM t" = .ok
        { distinct := true
          items := [.plain "a" none]
          tables := [⟨"t", none⟩]
          projectionEnd := 34
          edits := [.tableName 39 "t"] } ∧
      ⟨.symbol .leftParen, 20, "("⟩ ∈
        Token.subqueries (Token.list "SELECT DISTINCT ON ((SELECT 1)) a FROM t") := by
    decide +kernel
  obtain ⟨query, describes, inside⟩ := subqueries_verbatim shipped accepted
  exact ⟨shipped, opens, _, accepted, query, describes, inside _ opens⟩

/-- The arguments of an aggregate call are not looked into, and so a subquery passes. -/
theorem subquery_accepted :
    let text := "SELECT COUNT((SELECT 1)) FROM t"
    Token.subqueries (Token.list text) = [⟨.symbol .leftParen, 13, "("⟩] ∧
      ofText .generic text = .ok
        { items := [.aggregation ⟨.count, "((SELECT 1))", none, 1, []⟩]
          tables := [⟨"t", none⟩]
          projectionEnd := 25
          edits := [.tableName 30 "t"] } := by
  decide +kernel

end Statement

end SelectRouting
