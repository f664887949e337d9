import SelectRouting.Proofs.Query

/-!
# How the parts of a query begin

Behind the first words of a query no part begins with a point or with `SELECT`. So a name before a
point, and a parenthesis before `SELECT`, stand in one part together with what follows them.
-/

namespace SelectRouting

open Token (AreLexed frontKind)

/-- No part of a query behind its first words begins with a token of the kind: a point, or `SELECT`. -/
def TokenKind.IsInterior (kind : TokenKind) : Prop :=
  kind = .symbol .dot ∨ kind = .keyword .SELECT

variable {kind : TokenKind}

theorem TokenKind.IsInterior.ne_endOfInput (interior : kind.IsInterior) : .endOfInput ≠ kind := by
  rcases interior with rfl | rfl <;> simp

theorem Token.frontKind_ne {tokens rest : List Token} (others : ∀ token ∈ tokens, token.kind ≠ kind)
    (behind : frontKind rest ≠ kind) : frontKind (tokens ++ rest) ≠ kind := by
  cases tokens with
  | nil => exact behind
  | cons token tokens => exact others token List.mem_cons_self

/-- A word that is spelled otherwise is no keyword. -/
theorem Token.IsLexed.kind_ne_keyword {token : Token} {word : Keyword} {spelling : String}
    (lexed : token.IsLexed) (is : Text.sameIgnoringCase token.lexeme spelling = true)
    (other : Text.sameIgnoringCase word.spelling spelling = false) : token.kind ≠ .keyword word := by
  intro named
  have same := lexed.spells_keyword named
  rw [Text.sameIgnoringCase, beq_iff_eq] at same is
  rw [Text.sameIgnoringCase, same, is] at other
  simp at other

namespace Phrase
variable {phrase : Phrase} {rest : List Token}

theorem frontKind_tokens_ne (interior : kind.IsInterior) (fits : phrase.Fits rest)
    (lexed : AreLexed phrase.tokens) : frontKind phrase.tokens ≠ kind := by
  have noColumn (front : TokenKind) (starts : Expr.startsColumn front = true) : front ≠ kind := by
    rintro rfl
    rcases interior with rfl | rfl <;> cases starts
  cases phrase with
  | mark token =>
    have stands : Expr.isSyntax token.kind = true := fits
    intro same
    rw [show token.kind = kind from same] at stands
    rcases interior with rfl | rfl <;> cases stands
  | word token =>
    have written := lexed token (by simp [tokens])
    rcases interior with rfl | rfl
    · intro point
      have noSymbol := written.isWritten_of_word fits (by decide)
      simp [show token.kind = _ from point, TokenKind.isWritten, TokenKind.isSymbol] at noSymbol
    · exact written.kind_ne_keyword fits (by decide)
  | «variable» marks written =>
    obtain ⟨some, are, _⟩ := fits
    obtain ⟨sign, marks, rfl⟩ := List.exists_cons_of_ne_nil some
    change sign.kind ≠ _
    rcases interior with rfl | rfl <;> rcases are sign List.mem_cons_self with is | is <;> simp [is]
  | name owners last => exact noColumn _ fits.2.2.1
  | columns owners star => exact noColumn _ fits.2.2.1
  | call function arguments =>
    have starts := fits.1
    intro same
    rw [show function.kind = kind from same] at starts
    rcases interior with rfl | rfl <;> cases starts
  | cast sign type arguments =>
    change sign.kind ≠ _
    rcases interior with rfl | rfl <;> simp [fits.1]

end Phrase

/-- An alias does not begin a part that it names. -/
theorem Scan.AliasTokens.frontKind_ne {tokens : List Token} {answer : Option String}
    {next : TokenKind} (interior : kind.IsInterior) (named : AliasTokens tokens answer next) :
    frontKind tokens ≠ kind := by
  cases named with
  | absent => exact interior.ne_endOfInput
  | dangling word | introduced word =>
    rw [Token.frontKind_cons, word]
    rcases interior with rfl | rfl <;> simp
  | bare reads =>
    rw [Token.frontKind_cons]
    rintro rfl
    rcases interior with is | is <;> simp [is, TokenKind.readsAsAlias] at reads

/-- An alias is written with words and literals alone. -/
theorem Scan.AliasTokens.noSymbol {tokens : List Token} {answer : Option String}
    {next : TokenKind} (named : AliasTokens tokens answer next) :
    ∀ token ∈ tokens, token.kind.isSymbol = false := by
  cases named with
  | absent => simp
  | dangling word => simp [word, TokenKind.isSymbol]
  | introduced word noSymbol => simpa [word, TokenKind.isSymbol] using noSymbol
  | @bare token _ reads =>
    rw [List.forall_mem_singleton]
    refine Bool.eq_false_iff.mpr fun symbol => ?_
    revert reads symbol
    cases token.kind <;> simp [TokenKind.readsAsAlias, TokenKind.isSymbol]

theorem Scan.AliasTokens.kind_ne {tokens : List Token} {answer : Option String} {next : TokenKind}
    (named : AliasTokens tokens answer next) (mark : Symbol) :
    ∀ token ∈ tokens, token.kind ≠ .symbol mark := by
  intro token inside is
  have noSymbol := named.noSymbol token inside
  simp [is, TokenKind.isSymbol] at noSymbol

namespace Equation
variable {equation : Equation} {rest : List Token}

theorem frontKind_tokens_ne (interior : kind.IsInterior) (fits : equation.Fits rest) :
    frontKind equation.tokens ≠ kind := by
  change equation.word.kind ≠ _
  rcases interior with rfl | rfl <;> rcases fits.word with is | is <;> simp [is]

end Equation

namespace Source
variable {source : Source} {rest : List Token}

theorem frontKind_columns_ne (interior : kind.IsInterior) (fits : source.Fits rest) :
    frontKind source.columns ≠ kind := by
  rcases fits.columns with none | ⟨word, group, is, named, _⟩
  · rw [none]
    exact interior.ne_endOfInput
  · rw [is, Token.frontKind_cons, named]
    rcases interior with rfl | rfl <;> simp

theorem frontKind_equation_ne (interior : kind.IsInterior) (fits : source.Fits rest) :
    ∀ equation ∈ source.equations, frontKind equation.tokens ≠ kind := by
  intro equation inside
  obtain ⟨_, fits⟩ := Token.Fit.of_mem fits.equations inside
  exact Equation.frontKind_tokens_ne interior fits

theorem frontKind_condition_ne (interior : kind.IsInterior) (fits : source.Fits rest) :
    frontKind source.condition ≠ kind :=
  Token.frontKind_flatMap_ne (frontKind_equation_ne interior fits) (frontKind_columns_ne interior fits)

theorem frontKind_tokens_ne (interior : kind.IsInterior) (fits : source.Fits rest) :
    frontKind source.tokens ≠ kind := by
  obtain ⟨token, others, is⟩ := List.exists_cons_of_ne_nil fits.introducer_ne_nil
  have first : token ∈ source.introducer := by
    rw [is]
    exact List.mem_cons_self
  rw [tokens, is]
  change token.kind ≠ _
  rcases interior with rfl | rfl
  · exact fits.kind_introducer (P := (· ≠ _)) (by decide) first
  · exact fits.kind_introducer (P := (· ≠ _)) (by decide) first

end Source

namespace Piece
variable {piece : Piece} {rest : List Token}

theorem frontKind_tokens_ne (interior : kind.IsInterior) (fits : piece.Fits rest)
    (lexed : AreLexed piece.tokens) : frontKind piece.tokens ≠ kind := by
  cases piece with
  | words tokens =>
    rw [← List.append_nil (Piece.words tokens).tokens]
    refine Token.frontKind_ne (fun token inside => ?_) interior.ne_endOfInput
    rcases fits token inside with is | ⟨word, member, is⟩
    · rcases interior with rfl | rfl <;> simp [is]
    · rw [is]
      rcases interior with rfl | rfl
      · simp
      · rintro same
        obtain rfl := TokenKind.keyword.inj same
        simp [clauseWords] at member
  | expression phrases =>
    obtain ⟨some, fit, _⟩ := fits
    obtain ⟨phrase, phrases, rfl⟩ := List.exists_cons_of_ne_nil some
    rw [tokens, Phrase.text_cons, Token.frontKind_append phrase.tokens_ne_nil]
    exact Phrase.frontKind_tokens_ne interior fit.1 lexed.left

end Piece

namespace Query
variable {query : Query} {dialect : Dialect}

/-- The items behind the first one begin with their commas. -/
theorem frontKind_item_ne (interior : kind.IsInterior) {items : List Projected}
    (commas : ∀ item ∈ items, ∃ comma, item.comma = [comma] ∧ comma.kind = .symbol .comma) :
    ∀ item ∈ items, frontKind item.tokens ≠ kind := by
  intro item inside
  obtain ⟨comma, is, named⟩ := commas item inside
  rw [Projected.tokens, is]
  change comma.kind ≠ _
  rw [named]
  rcases interior with rfl | rfl <;> simp

theorem frontKind_piece_ne (interior : kind.IsInterior) (fits : query.Fits dialect)
    (lexed : AreLexed (query.pieces.flatMap Piece.tokens)) :
    ∀ piece ∈ query.pieces, frontKind piece.tokens ≠ kind := by
  intro piece inside
  obtain ⟨_, fits⟩ := Token.Fit.of_mem fits.pieces inside
  exact Piece.frontKind_tokens_ne interior fits (lexed.of_mem_flatMap inside)

theorem frontKind_closing_ne (interior : kind.IsInterior)
    (closing : ∀ token ∈ query.closing, token.kind ≠ kind) : frontKind query.closing ≠ kind := by
  rw [← List.append_nil query.closing]
  exact Token.frontKind_ne closing interior.ne_endOfInput

theorem frontKind_clauses_ne (interior : kind.IsInterior) (fits : query.Fits dialect)
    (closing : ∀ token ∈ query.closing, token.kind ≠ kind)
    (lexed : AreLexed (query.pieces.flatMap Piece.tokens)) :
    frontKind (query.pieces.flatMap Piece.tokens ++ query.closing) ≠ kind :=
  Token.frontKind_flatMap_ne (frontKind_piece_ne interior fits lexed)
    (frontKind_closing_ne interior closing)

theorem frontKind_source_ne (interior : kind.IsInterior) (fits : query.Fits dialect) :
    ∀ source ∈ query.sources, frontKind source.tokens ≠ kind := by
  intro source inside
  obtain ⟨_, fits⟩ := Token.Fit.of_mem fits.sources inside
  exact Source.frontKind_tokens_ne interior fits

/-- What stands behind the projection list. -/
theorem frontKind_behind_ne (interior : kind.IsInterior) (fits : query.Fits dialect)
    (closing : ∀ token ∈ query.closing, token.kind ≠ kind) (lexed : AreLexed query.behind) :
    frontKind query.behind ≠ kind := by
  rw [behind, List.append_assoc] at lexed ⊢
  exact Token.frontKind_flatMap_ne (frontKind_source_ne interior fits)
    (frontKind_clauses_ne interior fits closing lexed.right.left)

end Query

end SelectRouting
