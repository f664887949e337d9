import SelectRouting.Analysis.Select
import SelectRouting.Proofs.ExprPassage

/-!
# The parts of a query

A query that is accepted falls into parts (`Query`): the words in front, the items of the
projection list, the tables with the conditions that join them, the expressions of the later
clauses, and the row limit. The parts say where each token stands, and so which tokens name tables
that may be replaced (`Query.anchors`), and which names are passed without being looked at
(`Query.unread`).
-/

namespace SelectRouting

/-- The edit of a table name. -/
def Token.edit (token : Token) : Edit :=
  .tableName token.start token.lexeme

/-- One of the tables has the name that the token spells, ignoring quotes and case. -/
def Token.namesTable (tables : List Table) (token : Token) : Bool :=
  tables.any fun table => Text.sameIgnoringCase table.name (Text.stripQuotes token.lexeme)

/-- The name that the tokens of an alias give. -/
def Token.aliasIn : List Token → Option String
  | [token] => if token.kind = .keyword .AS then none else some (Text.stripQuotes token.lexeme)
  | [_, token] => some (Text.stripQuotes token.lexeme)
  | _ => none

namespace Phrase

/-- The names that are passed without being looked at: the parts of a name before the one that
qualifies its column, and the arguments of a type. -/
def unread : Phrase → List Token
  | .name owners _ | .columns owners _ => owners.dropLast.map Prod.fst
  | .cast _ _ arguments => arguments
  | _ => []

end Phrase

/-- One item of the projection list. -/
structure Projected where
  /-- The comma before the item, if it is not the first one. -/
  comma : List Token
  /-- A star, or a call of an aggregate function with its group; these begin an item. -/
  call : List Token
  /-- The tokens that are passed one after the other. An alias without `AS` is the last of them. -/
  text : List Token
  /-- The alias behind a star, behind a call or behind `AS`. -/
  named : List Token

namespace Projected

/-- The tokens of an item. -/
def tokens (item : Projected) : List Token :=
  item.comma ++ item.call ++ item.text ++ item.named

/-- The tokens are a star, also one in quotes. -/
def IsStar (tokens : List Token) : Prop :=
  ∃ star, tokens = [star] ∧ (star.kind = .symbol .star ∨ Text.stripQuotes star.lexeme = "*")

/-- The tokens are an aggregate function and the group of its arguments. -/
def IsCall (tokens : List Token) : Prop :=
  ∃ function group word, tokens = function :: group ∧ function.kind = .keyword word ∧
    (AggregateFunction.ofKeyword? word).isSome = true ∧ Token.IsGroup group

/-- The tokens can form the item where `rest` stands behind it. -/
structure Fits (rest : List Token) (item : Projected) : Prop where
  call : item.call = [] ∨ (IsStar item.call ∧ item.text = []) ∨ IsCall item.call
  text : Token.Balanced item.text
  some : item.call ++ item.text ≠ []
  named : item.named = [] ∨
    Scan.AliasTokens item.named (Token.aliasIn item.named) (Token.frontKind rest)

/-- No subquery begins in the text, which is passed token by token, and no word that ends an item
stands in it outside of parentheses, of which `depth` are open before it. -/
structure GuardedText (depth : Nat) (text : List Token) : Prop where
  subqueries : Token.subqueries text = []
  words : ∀ token ∈ Token.outside depth text, ∀ word ∈ AnalysisStep.closingKeywords,
    token.kind ≠ .keyword word

theorem GuardedText.nil (depth : Nat) : GuardedText depth [] :=
  ⟨rfl, by simp⟩

/-- The text is passed token by token: it is guarded, ends before a semicolon outside of parentheses, and
has no `EXISTS` at all. -/
structure PassedText (depth : Nat) (text : List Token) : Prop extends GuardedText depth text where
  noSemicolon : ∀ token ∈ Token.outside depth text, token.kind ≠ .symbol .semicolon
  noExists : ∀ token ∈ text, token.kind ≠ .keyword .EXISTS

theorem PassedText.nil (depth : Nat) : PassedText depth [] :=
  ⟨.nil depth, by simp, by simp⟩

/-- The text of the item is passed token by token. What is no star and no call begins with a token that
may begin an item. -/
structure Guarded (item : Projected) : Prop extends PassedText 0 item.text where
  starts : item.call = [] → AnalysisStep.startsItem (Token.frontKind item.text) = true

/-- A star or a call alone is guarded. -/
theorem Guarded.of_call {item : Projected} (call : item.call ≠ []) (none : item.text = []) :
    item.Guarded where
  toPassedText := none ▸ .nil 0
  starts absent := absurd absent call

theorem Guarded.withComma {item : Projected} (guarded : item.Guarded) (comma : List Token) :
    Guarded { item with comma } :=
  ⟨guarded.toPassedText, guarded.starts⟩

theorem Fits.tokens_ne_nil {rest : List Token} {item : Projected} (fits : item.Fits rest) :
    item.tokens ≠ [] := by
  intro none
  simp only [tokens, List.append_eq_nil_iff] at none
  exact fits.some (by rw [none.1.1.2, none.1.2, List.append_nil])

end Projected

/-- An equation of a join condition. -/
structure Equation where
  /-- The word before the equation: `ON`, or `AND` behind another equation. -/
  word : Token
  left : List Phrase
  sign : Token
  right : List Phrase

namespace Equation

/-- The tokens of an equation. -/
def tokens (equation : Equation) : List Token :=
  equation.word :: Phrase.text equation.left ++ equation.sign :: Phrase.text equation.right

/-- The owner of a side that is a column with its owner and nothing else. -/
def sideOwner : List Phrase → List Token
  | [.name owners _] => (owners.getLast?.map Prod.fst).toList
  | _ => []

/-- The names of a side that are passed without being looked at: all of them, except the owner of a
side that is a column with its owner. -/
def sideUnread : List Phrase → List Token
  | [.name owners _] => owners.dropLast.map Prod.fst
  | phrases => Phrase.text phrases

/-- The owners of the two sides. -/
def owners (equation : Equation) : List Token :=
  sideOwner equation.left ++ sideOwner equation.right

/-- The names of the two sides that are passed without being looked at. -/
def unread (equation : Equation) : List Token :=
  sideUnread equation.left ++ sideUnread equation.right

/-- The phrases form one side of an equation where `rest` stands behind it: operators of an
expression that bind more tightly than a comparison hold them together. -/
structure FitsSide (rest : List Token) (phrases : List Phrase) : Prop where
  some : phrases ≠ []
  fit : Phrase.Fit phrases rest
  balanced : Token.Balanced (Phrase.text phrases)
  continues : Phrase.Continues (Expr.comparisonPower + 1) phrases
  consumes : ExprStep.Consumes (Expr.comparisonPower + 1) (Phrase.text phrases) rest

/-- The tokens can form the equation where `rest` stands behind it. -/
structure Fits (rest : List Token) (equation : Equation) : Prop where
  word : equation.word.kind = .keyword .ON ∨ equation.word.kind = .keyword .AND
  sign : equation.sign.kind = .symbol .eq
  left : FitsSide (equation.sign :: Phrase.text equation.right ++ rest) equation.left
  right : FitsSide rest equation.right

/-- No subquery begins in the arguments of a call on either side. -/
def Guarded (equation : Equation) : Prop :=
  ∀ phrase ∈ equation.left ++ equation.right, phrase.Guarded

/-- The first of the equations stands behind `ON`, and each other one behind `AND`. -/
def Conjoined : List Equation → Prop
  | [] => True
  | first :: others => first.word.kind = .keyword .ON ∧
      ∀ equation ∈ others, equation.word.kind = .keyword .AND

end Equation

/-- A table of the `FROM` clause with what joins it to those before. -/
structure Source where
  /-- `FROM`, or a join operator. -/
  introducer : List Token
  /-- The schema of the table and the point behind it, if the table is named with its schema. -/
  schema : List Token
  /-- The name of the table; only behind a schema it may be missing. -/
  name : List Token
  named : List Token
  /-- The equations behind `ON`. -/
  equations : List Equation
  /-- `USING` and the group of its columns. -/
  columns : List Token

namespace Source

/-- The tokens behind the alias of the table. -/
def condition (source : Source) : List Token :=
  source.equations.flatMap Equation.tokens ++ source.columns

/-- The tokens of a table and what joins it. -/
def tokens (source : Source) : List Token :=
  source.introducer ++ source.schema ++ source.name ++ source.named ++ source.condition

/-- The name of a table that is named without a schema. -/
def routed (source : Source) : List Token :=
  if source.schema.isEmpty then source.name else []

/-- The table, when it is named without a schema. -/
def tables (source : Source) : List Table :=
  source.routed.map fun token =>
    { name := Text.stripQuotes token.lexeme, aliasName := Token.aliasIn source.named }

/-- The name of the table, and the owners in its equations that are tables by then. -/
def anchors (known : List Table) (source : Source) : List Token :=
  source.routed ++ (source.equations.flatMap Equation.owners).filter
    (Token.namesTable (known ++ source.tables))

/-- The names in the condition that are passed without being looked at, or that are not yet those of
tables. -/
def unread (known : List Table) (source : Source) : List Token :=
  source.equations.flatMap Equation.unread ++ source.columns ++
    (source.equations.flatMap Equation.owners).filter
      fun token => !Token.namesTable (known ++ source.tables) token

/-- The table has a name of its own, or one behind a schema, which may be missing at the end. -/
def IsNamed (source : Source) : Prop :=
  (source.schema = [] ∧ ∃ token, source.name = [token] ∧ token.kind.isIdentifier = true) ∨
    ∃ schema point, source.schema = [schema, point] ∧ schema.kind.isIdentifier = true ∧
      point.kind = .symbol .dot ∧ source.name.length ≤ 1

/-- What stands before a table: `FROM`, or a join operator. -/
def introducers : List (List TokenKind) :=
  [.keyword .FROM] :: Scan.joinOperators

/-- The tokens can form the table where `rest` stands behind it. Behind a schema only the end of the
text stands in the place of a name. -/
structure Fits (rest : List Token) (source : Source) : Prop where
  introducer : source.introducer.map Token.kind ∈ introducers
  name : source.IsNamed
  ended : source.name = [] → source.named ++ source.condition ++ rest = []
  named : Scan.AliasTokens source.named (Token.aliasIn source.named)
    (Token.frontKind (source.condition ++ rest))
  equations : Token.Fit Equation.tokens Equation.Fits source.equations (source.columns ++ rest)
  conjoined : Equation.Conjoined source.equations
  columns : source.columns = [] ∨ ∃ word group, source.columns = word :: group ∧
    word.kind = .keyword .USING ∧ source.equations = [] ∧ (group = [] ∨ Token.IsGroup group)

section Fits
variable {rest : List Token} {source : Source} (fits : source.Fits rest)
include fits

theorem Fits.introducer_ne_nil : source.introducer ≠ [] := by
  intro none
  have introduced := fits.introducer
  rw [none, List.map_nil] at introduced
  exact absurd introduced (by decide)

/-- What holds of the kinds of all introducers holds of the tokens of this one. -/
theorem Fits.kind_introducer {P : TokenKind → Prop}
    (all : ∀ kinds ∈ introducers, ∀ kind ∈ kinds, P kind) {token : Token}
    (inside : token ∈ source.introducer) : P token.kind :=
  all _ fits.introducer _ (List.mem_map_of_mem inside)

end Fits

/-- The first table stands directly behind `FROM` and has no condition, and each other one stands
behind a join operator. -/
def Joined : List Source → Prop
  | [] => True
  | first :: others => first.introducer.map Token.kind = [.keyword .FROM] ∧ first.condition = [] ∧
      ∀ source ∈ others, source.introducer.map Token.kind ∈ Scan.joinOperators

/-- No subquery begins in the arguments of a call in the equations. -/
def Guarded (source : Source) : Prop :=
  ∀ equation ∈ source.equations, equation.Guarded

/-- The tables of sources that stand behind the tables `known`: the tokens that name tables. -/
def allAnchors : (known : List Table) → List Source → List Token
  | _, [] => []
  | known, source :: sources =>
    source.anchors known ++ allAnchors (known ++ source.tables) sources

/-- The names in the sources that are passed without being looked at, or before their table. -/
def allUnread : (known : List Table) → List Source → List Token
  | _, [] => []
  | known, source :: sources =>
    source.unread known ++ allUnread (known ++ source.tables) sources

end Source

/-- A part of the clauses behind the tables. -/
inductive Piece where
  /-- Words that introduce an expression or follow it, and the commas between keys. -/
  | words (tokens : List Token)
  /-- An expression. -/
  | expression (phrases : List Phrase)

namespace Piece

/-- The tokens of a part. -/
def tokens : Piece → List Token
  | .words tokens => tokens
  | .expression phrases => Phrase.text phrases

/-- The owners of columns in a part. -/
def qualifiers : Piece → List Token
  | .words _ => []
  | .expression phrases => phrases.flatMap Phrase.qualifiers

/-- The names that are passed without being looked at. -/
def unread : Piece → List Token
  | .words _ => []
  | .expression phrases => phrases.flatMap Phrase.unread

/-- The words around the expressions of the later clauses. -/
def clauseWords : List Keyword :=
  [.WHERE, .GROUP, .BY, .WITH, .ROLLUP, .HAVING, .ORDER, .ASC, .DESC]

/-- The tokens can form the part where `rest` stands behind it. -/
def Fits (rest : List Token) : Piece → Prop
  | .words tokens => ∀ token ∈ tokens,
      token.kind = .symbol .comma ∨ ∃ word ∈ clauseWords, token.kind = .keyword word
  | .expression phrases => phrases ≠ [] ∧ Phrase.Fit phrases rest ∧
      Token.Balanced (Phrase.text phrases) ∧ ExprStep.Consumes 0 (Phrase.text phrases) rest

/-- No subquery begins in the arguments of a call. -/
def Guarded : Piece → Prop
  | .words _ => True
  | .expression phrases => ∀ phrase ∈ phrases, phrase.Guarded

end Piece

/-- The keywords that start a query body, the first or another one. -/
def Keyword.bodyWords : List Keyword :=
  [.SELECT, .UNION, .EXCEPT, .INTERSECT, .MINUS]

/-- A token of this kind can stand behind the last expression of a query: it is no point, no
parenthesis and no keyword that starts a query body. -/
structure TokenKind.IsClosing (kind : TokenKind) : Prop where
  noPoint : kind ≠ .symbol .dot
  noOpening : kind ≠ .symbol .leftParen
  noClosing : kind ≠ .symbol .rightParen
  noBody : ∀ word ∈ Keyword.bodyWords, kind ≠ .keyword word

theorem TokenKind.IsClosing.noSelect {kind : TokenKind} (closing : kind.IsClosing) :
    kind ≠ .keyword .SELECT :=
  closing.noBody .SELECT (by decide)

/-- A query by its parts. -/
structure Query where
  /-- `SELECT` and the words behind it. -/
  opening : List Token
  /-- The group behind `DISTINCT ON`. -/
  distinctOn : List Token
  items : List Projected
  sources : List Source
  pieces : List Piece
  /-- The row limit, the locking read and the semicolon. -/
  closing : List Token

namespace Query

/-- The tokens behind the projection list. -/
def behind (query : Query) : List Token :=
  query.sources.flatMap Source.tokens ++ query.pieces.flatMap Piece.tokens ++ query.closing

/-- The tokens of the projection list. -/
def projection (query : Query) : List Token :=
  query.items.flatMap Projected.tokens

/-- The tokens of a query. -/
def tokens (query : Query) : List Token :=
  query.opening ++ query.distinctOn ++ query.projection ++ query.behind

/-- The tables that are routed. -/
def tables (query : Query) : List Table :=
  query.sources.flatMap Source.tables

/-- The names of the tables that are routed. -/
def factors (query : Query) : List Token :=
  query.sources.flatMap Source.routed

/-- The tokens of the projection list that may name tables. -/
def projectedAnchors (query : Query) : List Token :=
  query.items.flatMap fun item => Token.owners item.text

/-- The tokens behind the projection list that name tables. -/
def laterAnchors (query : Query) : List Token :=
  Source.allAnchors [] query.sources ++
    (query.pieces.flatMap Piece.qualifiers).filter (Token.namesTable query.tables)

/-- The tokens that name tables, in the order of the text. -/
def anchors (query : Query) : List Token :=
  query.projectedAnchors ++ query.laterAnchors

/-- The tokens that are passed without being looked at: the group behind `DISTINCT ON`, the
aggregate calls that begin an item, the sides of join equations that are no column with its owner,
the group behind `USING`, and in other expressions the outer owners of a name and the arguments of a
type. An owner in a join equation whose table stands further behind is one of them. -/
def unread (query : Query) : List Token :=
  query.distinctOn ++ query.items.flatMap Projected.call ++ Source.allUnread [] query.sources ++
    query.pieces.flatMap Piece.unread

/-- The schemas of tables that are named with one. -/
def schemas (query : Query) : List Token :=
  query.sources.flatMap Source.schema

/-- The tokens can form the query. -/
structure Fits (dialect : Dialect) (query : Query) : Prop where
  opening : ∀ token ∈ query.opening, ∃ word, token.kind = .keyword word
  select : Token.frontKind query.opening = .keyword .SELECT
  distinctOn : query.distinctOn = [] ∨ (dialect.distinctOn = true ∧ Token.IsGroup query.distinctOn ∧
    ∃ word ∈ query.opening.getLast?, word.kind = .keyword .ON)
  items : Token.Fit Projected.tokens Projected.Fits query.items query.behind
  commas : ∃ first rest, query.items = first :: rest ∧ first.comma = [] ∧
    ∀ item ∈ rest, ∃ comma, item.comma = [comma] ∧ comma.kind = .symbol .comma
  sources : Token.Fit Source.tokens Source.Fits query.sources
    (query.pieces.flatMap Piece.tokens ++ query.closing)
  joined : Source.Joined query.sources
  pieces : Token.Fit Piece.tokens Piece.Fits query.pieces query.closing
  closing : ∀ token ∈ query.closing, token.kind ≠ .symbol .dot

/-- No subquery begins where the parts are looked at token by token. -/
structure Guarded (query : Query) : Prop where
  items : ∀ item ∈ query.items, item.Guarded
  sources : ∀ source ∈ query.sources, source.Guarded
  pieces : ∀ piece ∈ query.pieces, piece.Guarded
  closing : ∀ token ∈ query.closing, token.kind.IsClosing

end Query

end SelectRouting
