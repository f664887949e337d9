import SelectRouting.ParseError
import SelectRouting.Text.Quotes
import SelectRouting.Token.Scan

/-!
# The cursor

A place in the tokens of a query, the span of the token last passed, and the number of placeholders
counted so far. The cursor moves forward only, and it stays at the end of the input once it is
there.
-/

namespace SelectRouting

/-- A place in the tokens of `text`: the tokens in `rest` are still to be read. -/
structure Cursor where
  text : String
  rest : List Token
  previous : Span := ⟨0, 0⟩
  parameters : Nat := 0
deriving DecidableEq

namespace Cursor

/-- The error for the first token of the text that could not be read. -/
def firstLexicalError? (tokens : List Token) : Option ParseError :=
  tokens.findSome? fun token =>
    match token.kind with
    | .invalid error => some (.lexical error token.span)
    | _ => none

/-- A cursor before the first token of the text. -/
def ofText (text : String) : Except ParseError Cursor :=
  let tokens := Token.list text
  match firstLexicalError? tokens with
  | some error => .error error
  | none => .ok { text, rest := tokens }

/-- The token `n` places ahead, the end of the input when there are fewer. -/
def peek (cursor : Cursor) (n : Nat) : Token :=
  cursor.rest[n]?.getD (Token.eof cursor.text.utf8ByteSize)

/-- The token that the cursor stands at. -/
def current (cursor : Cursor) : Token :=
  cursor.peek 0

/-- The kind of the token that the cursor stands at. -/
def kind (cursor : Cursor) : TokenKind :=
  cursor.current.kind

/-- The text of the token that the cursor stands at, as written. -/
def lexeme (cursor : Cursor) : String :=
  cursor.current.lexeme

/-- The offset of the token that the cursor stands at. -/
def start (cursor : Cursor) : Nat :=
  cursor.current.start

/-- The part of the text that a span covers. -/
def source (cursor : Cursor) (span : Span) : String :=
  span.slice cursor.text

/-- The cursor stands at the end of the input. -/
def atEnd (cursor : Cursor) : Bool :=
  cursor.current.isEof

/-- The cursor stands at an operator, a delimiter or the end of the input. -/
def atSymbolOrEnd (cursor : Cursor) : Bool :=
  cursor.kind.isSymbol || cursor.atEnd

/-- The cursor stands at a token of the same shape as `kind`. -/
def at? (cursor : Cursor) (kind : TokenKind) : Bool :=
  cursor.kind.sameShape kind

/-- The cursor stands at one of the keywords. -/
def atKeyword? (cursor : Cursor) (words : List Keyword) : Bool :=
  match cursor.kind with
  | .keyword word => words.contains word
  | _ => false

/-- The text of the current token is the word, ignoring the case of ASCII letters. -/
def atWord? (cursor : Cursor) (word : String) : Bool :=
  Text.sameIgnoringCase cursor.lexeme word

/-- The next token is the opening of a subquery's parenthesis, seen from the parenthesis. -/
def opensSubquery (cursor : Cursor) : Bool :=
  (cursor.peek 1).kind == .keyword .SELECT

/-- The cursor behind the current token, or the same cursor at the end of the input. -/
def advance (cursor : Cursor) : Cursor :=
  match cursor.rest with
  | [] => cursor
  | token :: rest => { cursor with rest, previous := token.span }

/-- The cursor with one more placeholder counted. -/
def countParameter (cursor : Cursor) : Cursor :=
  { cursor with parameters := cursor.parameters + 1 }

/-- The error of a token that is not what is expected. -/
def unexpected (cursor : Cursor) (expected : Expectation) : ParseError :=
  .unexpected expected cursor.kind cursor.current.span

end Cursor

end SelectRouting
