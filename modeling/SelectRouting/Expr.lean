import SelectRouting.Text.Quotes
import SelectRouting.Token

/-!
# Expressions

Of an expression only the shape at its top is kept: the analysis asks whether it is a number, a
column or a column of a table, and takes every other expression as the text that it covers.
-/

namespace SelectRouting

/-- A name in a query, as written there. -/
structure Name where
  written : String
  start : Nat
deriving DecidableEq

namespace Name

/-- The text of a token taken as a name. -/
def ofToken (token : Token) : Name :=
  ⟨token.lexeme, token.start⟩

/-- The name without quotes. -/
def value (name : Name) : String :=
  Text.stripQuotes name.written

/-- The bytes of the name, quotes included. -/
def span (name : Name) : Span :=
  ⟨name.start, name.start + name.written.utf8ByteSize⟩

end Name

/-- The shape of an expression. -/
inductive Expr where
  /-- An integer literal. -/
  | number (value : Nat)
  /-- A column or an alias. -/
  | identifier (name : Name)
  /-- A column with the table or the alias that it belongs to. -/
  | property (owner name : Name)
  /-- Any other expression, by the bytes that it covers. -/
  | other (span : Span)
deriving DecidableEq

end SelectRouting
