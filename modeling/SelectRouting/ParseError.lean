import SelectRouting.Token.Description

/-!
# Parse errors

Why a query is rejected. An error is kept as its cause and the place of the token it was noticed at;
the wording is in one function for each type.
-/

namespace SelectRouting

/-- What was required in place of the token that was found. -/
inductive Expectation where
  | kind (required : TokenKind)
  | keyword (required : Keyword)
  | openingParen
  | closingParen
  | expression
  | name
  | columnName
  | typeName
  | tableName
  | nullTest
  | projectionItem
  | rowCount
  | nullsPlacement
  | endOfStatement
  | word (text : String)
deriving DecidableEq

/-- The wording of the requirement. -/
def Expectation.describe : Expectation → String
  | .kind required => required.describe
  | .keyword required => required.spelling
  | .openingParen => "("
  | .closingParen => ")"
  | .expression => "expression"
  | .name => "name"
  | .columnName => "column name"
  | .typeName => "type name"
  | .tableName => "table name"
  | .nullTest => "NULL"
  | .projectionItem => "projection item"
  | .rowCount => "row count"
  | .nullsPlacement => "FIRST or LAST"
  | .endOfStatement => "end of statement"
  | .word text => text

/-- Why a query is rejected, and where. -/
inductive ParseError where
  /-- The text has a part that is no token. -/
  | lexical (error : LexicalError) (span : Span)
  /-- A required token is missing. -/
  | unexpected (expected : Expectation) (found : TokenKind) (span : Span)
  /-- A second query body begins, which cannot be routed. -/
  | unsupported (word : Keyword) (span : Span)
  /-- A subquery stands in place of a table or an expression. -/
  | subquery (span : Span)
deriving DecidableEq

namespace ParseError

/-- The place that the error points at. -/
def span : ParseError → Span
  | .lexical _ span | .unexpected _ _ span | .unsupported _ span | .subquery span => span

/-- The wording of the error. -/
def message : ParseError → String
  | .lexical error span => s!"Lexical error: {error.message} at position {span.describe}"
  | .unexpected expected found span =>
    s!"Unexpected token: expected {expected.describe}, found {found.describe} at position " ++
      span.describe
  | .unsupported word span => s!"Unsupported construct: {word.spelling} at position {span.describe}"
  | .subquery span => s!"Cannot support subquery at position {span.describe}"

end ParseError

end SelectRouting
