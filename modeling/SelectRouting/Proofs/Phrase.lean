import Mathlib.Algebra.Ring.Nat
import SelectRouting.Expr.Parser
import SelectRouting.Proofs.ScanPassage

/-!
# Phrases of expressions

The tokens of an expression fall into phrases: dotted names, calls, casts, variables, and single
tokens for the rest of the syntax. Which table a name qualifies a column of is decided within one
phrase, so the flat list of phrases says all that the analysis learns about the qualifiers of an
expression; the operators that join the phrases do not matter for it.
-/

namespace SelectRouting

namespace Expr

/-- The token stands in an expression by itself: a literal, an operator, a parenthesis or a comma, or
a word that belongs to the syntax. -/
def isSyntax : TokenKind → Bool
  | .integer _ | .float _ | .string _ | .blob _ => true
  | .keyword word =>
    [.NULL, .TRUE, .FALSE, .CASE, .WHEN, .THEN, .ELSE, .END, .NOT, .IS, .IN, .BETWEEN, .LIKE, .AND,
      .OR].contains word
  | .symbol mark => !([.dot, .doubleColon, .colon, .atSign, .semicolon] : List Symbol).contains mark
  | _ => false

/-- A literal other than an integer. -/
def isLiteral : TokenKind → Bool
  | .float _ | .string _ | .blob _ => true
  | .keyword word => [.NULL, .TRUE, .FALSE].contains word
  | _ => false

/-- A column can begin with the token. -/
def startsColumn : TokenKind → Bool
  | .identifier _ => true
  | .keyword word => ExprStep.isColumnName word
  | _ => false

/-- The token names a function when a parenthesis follows. -/
def startsCall : TokenKind → Bool
  | .identifier _ => true
  | .keyword word => ExprStep.isColumnName word || ExprStep.isFunctionName word
  | _ => false

theorem isSyntax_of_isLiteral {kind : TokenKind} (literal : isLiteral kind = true) :
    isSyntax kind = true := by
  cases kind with
  | keyword word => cases word <;> simp_all [isLiteral, isSyntax]
  | _ => simp_all [isLiteral, isSyntax]

theorem isWritten_of_isLiteral {kind : TokenKind} (literal : isLiteral kind = true) :
    kind.isWritten = true := by
  cases kind <;> simp_all [isLiteral, TokenKind.isWritten, TokenKind.isSymbol]

/-- The token is no parenthesis, comma or placeholder. -/
def IsPlain (kind : TokenKind) : Prop :=
  ∀ sign ∈ ([.leftParen, .rightParen, .comma, .question] : List Symbol), kind ≠ .symbol sign

theorem isPlain_of_isWritten {kind : TokenKind} (written : kind.isWritten = true) :
    IsPlain kind := by
  intro sign _ symbol
  simp [symbol, TokenKind.isWritten, TokenKind.isSymbol] at written

theorem unaryPower_spec {kind : TokenKind} {power : Nat} (binds : unaryPower? kind = some power) :
    isSyntax kind = true ∧ IsPlain kind := by
  unfold unaryPower? at binds
  split at binds <;> simp_all [isSyntax, IsPlain]

theorem binaryPower_spec {kind : TokenKind} {power : Nat} (binds : binaryPower? kind = some power) :
    isSyntax kind = true ∧ IsPlain kind := by
  unfold binaryPower? at binds
  split at binds <;> simp_all [isSyntax, IsPlain]

theorem isWritten_of_startsColumn {kind : TokenKind} (starts : startsColumn kind = true) :
    kind.isWritten = true := by
  cases kind <;> simp_all [startsColumn, TokenKind.isWritten, TokenKind.isSymbol]

theorem startsCall_of_startsColumn {kind : TokenKind} (starts : startsColumn kind = true) :
    startsCall kind = true := by
  cases kind <;> simp_all [startsColumn, startsCall]

end Expr

/-- What a reader of expressions passes in one go. -/
inductive Phrase where
  /-- A token that stands by itself. -/
  | mark (token : Token)
  /-- The word that introduces the escape character of a pattern. -/
  | word (token : Token)
  /-- A named parameter or a session variable behind its marks. -/
  | variable (marks : List Token) (name : Token)
  /-- A name; those before the last part stand with their points. -/
  | name (owners : List (Token × Token)) (last : Token)
  /-- All columns of an owner. -/
  | columns (owners : List (Token × Token)) (star : Token)
  /-- A function and its arguments with their parentheses. -/
  | call (function : Token) (arguments : List Token)
  /-- A cast to a type, whose arguments stand with their parentheses. -/
  | cast (sign type : Token) (arguments : List Token)

namespace Phrase

/-- The parts of a name with their points, as they are written. -/
def joined (owners : List (Token × Token)) : List Token :=
  owners.flatMap fun (owner, point) => [owner, point]

/-- The tokens of a phrase. -/
def tokens : Phrase → List Token
  | .mark token | .word token => [token]
  | .variable marks written => marks ++ [written]
  | .name owners last => joined owners ++ [last]
  | .columns owners star => joined owners ++ [star]
  | .call function arguments => function :: arguments
  | .cast sign type arguments => sign :: type :: arguments

/-- The owners of columns that are met in a phrase: of a name the part before the last, and of
arguments every name with a point behind it. -/
def qualifiers : Phrase → List Token
  | .name owners _ | .columns owners _ => (owners.getLast?.map Prod.fst).toList
  | .call _ arguments => Token.owners arguments
  | _ => []

/-- The placeholders that are counted in a phrase. -/
def placeholders : Phrase → Nat
  | .word _ => 0
  | phrase => Token.placeholders phrase.tokens

/-- The parts before the last one of a name are words or literals, each with a point. -/
def Dotted (owners : List (Token × Token)) : Prop :=
  ∀ part ∈ owners, part.1.kind.isWritten = true ∧ part.2.kind = .symbol .dot

theorem Dotted.append {owners : List (Token × Token)} {owner point : Token} (dotted : Dotted owners)
    (written : owner.kind.isWritten = true) (is : point.kind = .symbol .dot) :
    Dotted (owners ++ [(owner, point)]) := by
  intro part member
  rcases List.mem_append.mp member with member | member
  · exact dotted part member
  · rw [List.mem_singleton.mp member]
    exact ⟨written, is⟩

@[simp] theorem joined_append (first second : List (Token × Token)) :
    joined (first ++ second) = joined first ++ joined second :=
  List.flatMap_append

/-- The tokens can form the phrase where `rest` stands behind it. -/
def Fits (rest : List Token) : Phrase → Prop
  | .mark token => Expr.isSyntax token.kind = true
  | .word token => Text.sameIgnoringCase token.lexeme "ESCAPE" = true
  | .variable marks written =>
    marks ≠ [] ∧ (∀ sign ∈ marks, sign.kind = .symbol .colon ∨ sign.kind = .symbol .atSign) ∧
      written.kind.isWritten = true
  | .name owners last =>
    Dotted owners ∧ last.kind.isWritten = true ∧
      Expr.startsColumn (Token.frontKind (joined owners ++ [last])) = true ∧
      Token.frontKind rest ≠ .symbol .dot ∧
      (owners = [] → Token.frontKind rest ≠ .symbol .leftParen)
  | .columns owners star =>
    owners ≠ [] ∧ Dotted owners ∧
      Expr.startsColumn (Token.frontKind (joined owners ++ [star])) = true ∧
      star.kind = .symbol .star
  | .call function arguments =>
    Expr.startsCall function.kind = true ∧ Token.IsGroup arguments
  | .cast sign type arguments =>
    sign.kind = .symbol .doubleColon ∧ type.kind.isWritten = true ∧
      ((arguments = [] ∧ Token.frontKind rest ≠ .symbol .leftParen) ∨ Token.IsGroup arguments)

/-- No subquery begins in the arguments of a call. -/
def Guarded : Phrase → Prop
  | .call _ arguments => Token.subqueries arguments = []
  | _ => True

/-- The tokens of phrases. -/
def text (phrases : List Phrase) : List Token :=
  phrases.flatMap tokens

theorem tokens_ne_nil (phrase : Phrase) : phrase.tokens ≠ [] := by
  cases phrase <;> simp [tokens]

theorem text_ne_nil {phrases : List Phrase} (some : phrases ≠ []) : text phrases ≠ [] := by
  obtain ⟨phrase, rest, rfl⟩ := List.exists_cons_of_ne_nil some
  exact List.append_ne_nil_of_left_ne_nil phrase.tokens_ne_nil _

/-- Each of the phrases fits where the next ones, and at last `rest`, stand behind it. -/
def Fit (phrases : List Phrase) (rest : List Token) : Prop :=
  Token.Fit tokens Fits phrases rest

@[simp] theorem text_nil : text [] = [] := rfl

@[simp] theorem text_cons (phrase : Phrase) (phrases : List Phrase) :
    text (phrase :: phrases) = phrase.tokens ++ text phrases := rfl

@[simp] theorem text_append (first second : List Phrase) :
    text (first ++ second) = text first ++ text second :=
  List.flatMap_append

theorem Fit.append {first second : List Phrase} {rest : List Token}
    (left : Fit first (text second ++ rest)) (right : Fit second rest) :
    Fit (first ++ second) rest :=
  Token.Fit.append left right

/-- A name is balanced, since it has neither parentheses nor commas. -/
theorem balanced_joined {owners : List (Token × Token)} {tokens : List Token}
    (dotted : Dotted owners) (rest : Token.Balanced tokens) :
    Token.Balanced (joined owners ++ tokens) := by
  induction owners with
  | nil => exact rest
  | cons part owners ih =>
    obtain ⟨written, is⟩ := dotted part List.mem_cons_self
    have inner := ih fun part member => dotted part (List.mem_cons_of_mem _ member)
    exact .word written (.other (by simp [is]) (by simp [is]) (by simp [is]) inner)

/-- The shape that is answered for an expression of these phrases. -/
inductive Shapes : List Phrase → Expr → Prop where
  | number {token : Token} {value : Nat} : token.kind = .integer value →
      Shapes [.mark token] (.number value)
  | identifier {last : Token} : Shapes [.name [] last] (.identifier (.ofToken last))
  | property {owners : List (Token × Token)} {owner point last : Token} :
      Shapes [.name (owners ++ [(owner, point)]) last] (.property (.ofToken owner) (.ofToken last))
  | other {phrases : List Phrase} {span : Span} : phrases ≠ [] →
      (∀ owners last, phrases ≠ [.name owners last]) →
      (∀ token value, phrases = [.mark token] → token.kind ≠ .integer value) →
      Token.cover (text phrases) = span → Shapes phrases (.other span)

theorem Shapes.ne_nil {phrases : List Phrase} {expr : Expr} (shapes : Shapes phrases expr) :
    phrases ≠ [] := by
  cases shapes with
  | other some => exact some
  | _ => simp

end Phrase

namespace ExprState

/-- The reader passes the phrases and collects their qualifiers. -/
structure Reads (before : ExprState) (phrases : List Phrase) (after : ExprState) : Prop where
  moves : Cursor.Moves before.cursor (Phrase.text phrases) after.cursor
  fit : Phrase.Fit phrases after.cursor.rest
  parameters : after.cursor.parameters =
    before.cursor.parameters + (phrases.map Phrase.placeholders).sum
  qualifiers : after.qualifiers =
    before.qualifiers ++ (phrases.flatMap Phrase.qualifiers).map Name.ofToken
  guarded : ∀ phrase ∈ phrases, phrase.Guarded

theorem Reads.refl (state : ExprState) : Reads state [] state :=
  ⟨.refl state.cursor, trivial, rfl, by simp, by simp⟩

theorem Reads.trans {first second third : ExprState} {one two : List Phrase}
    (left : Reads first one second) (right : Reads second two third) :
    Reads first (one ++ two) third where
  moves := by
    rw [Phrase.text_append]
    exact left.moves.trans right.moves
  fit := by
    refine .append ?_ right.fit
    rw [← right.moves.rest]
    exact left.fit
  parameters := by
    rw [right.parameters, left.parameters, List.map_append, List.sum_append, Nat.add_assoc]
  qualifiers := by
    rw [right.qualifiers, left.qualifiers, List.flatMap_append, List.map_append, List.append_assoc]
  guarded phrase member :=
    (List.mem_append.mp member).elim (left.guarded phrase) (right.guarded phrase)

/-- What is read and is no name and no number has the shape of the bytes that it covers. -/
theorem Reads.spans {before after : ExprState} {phrases : List Phrase}
    (reads : Reads before phrases after) (some : phrases ≠ [])
    (noName : ∀ owners last, phrases ≠ [.name owners last])
    (noNumber : ∀ token value, phrases = [.mark token] → token.kind ≠ .integer value) :
    Phrase.Shapes phrases (.other ⟨before.cursor.start, after.cursor.previous.stop⟩) :=
  .other some noName noNumber (reads.moves.cover (Phrase.text_ne_nil some))

/-- A phrase whose tokens the cursor passes is read when the state collects its qualifiers. -/
theorem Reads.single {before after : ExprState} (phrase : Phrase)
    (passes : Cursor.Passes before.cursor phrase.tokens after.cursor)
    (fits : phrase.Fits after.cursor.rest) (guarded : phrase.Guarded)
    (counted : ∀ token, phrase ≠ .word token)
    (qualifiers : after.qualifiers = before.qualifiers ++ phrase.qualifiers.map Name.ofToken) :
    Reads before [phrase] after where
  moves := by simpa using passes.toMoves
  fit := ⟨by simpa using fits, trivial⟩
  parameters := by
    have same : phrase.placeholders = Token.placeholders phrase.tokens := by
      cases phrase <;> first | rfl | exact absurd rfl (counted _)
    simp [passes.parameters, same]
  qualifiers := by simpa using qualifiers
  guarded := by simpa using guarded

/-- A token that stands by itself is read when it is passed. -/
theorem Reads.mark {before : ExprState} {token : Token} {cursor : Cursor}
    (passes : Cursor.Passes before.cursor [token] cursor) (stands : Expr.isSyntax token.kind = true) :
    Reads before [.mark token] { before with cursor } :=
  .single (.mark token) passes stands trivial (by simp) (by simp [Phrase.qualifiers])

end ExprState

end SelectRouting
