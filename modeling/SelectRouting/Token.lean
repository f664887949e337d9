import SelectRouting.Keyword
import SelectRouting.Number.Binary64
import SelectRouting.Span

/-!
# Tokens

The units that a query is read in. A token keeps its text as written beside the decoded kind, so
that names can be quoted back exactly, and the byte offset at which it starts.
-/

namespace SelectRouting

/-- Operators and delimiters. -/
inductive Symbol where
  | plus | minus | star | slash | percent
  | eq | notEq | lt | ltEq | gt | gtEq
  | concat | bitAnd | bitOr | bitNot | leftShift | rightShift
  | leftParen | rightParen | comma | semicolon | dot | colon | doubleColon | question | atSign
deriving DecidableEq

namespace Symbol

/-- The symbol of one character. -/
def single? : Char → Option Symbol
  | '(' => some .leftParen
  | ')' => some .rightParen
  | ',' => some .comma
  | ';' => some .semicolon
  | '.' => some .dot
  | ':' => some .colon
  | '?' => some .question
  | '@' => some .atSign
  | '+' => some .plus
  | '-' => some .minus
  | '*' => some .star
  | '/' => some .slash
  | '%' => some .percent
  | '=' => some .eq
  | '<' => some .lt
  | '>' => some .gt
  | '&' => some .bitAnd
  | '|' => some .bitOr
  | '~' => some .bitNot
  | _ => none

/-- The symbol of two characters. -/
def double? : Char → Char → Option Symbol
  | '<', '=' => some .ltEq
  | '>', '=' => some .gtEq
  | '<', '>' => some .notEq
  | '!', '=' => some .notEq
  | '<', '<' => some .leftShift
  | '>', '>' => some .rightShift
  | '|', '|' => some .concat
  | ':', ':' => some .doubleColon
  | _, _ => none

/-- The name of the symbol in messages. -/
def name : Symbol → String
  | .plus => "Plus"
  | .minus => "Minus"
  | .star => "Star"
  | .slash => "Slash"
  | .percent => "Percent"
  | .eq => "Eq"
  | .notEq => "NotEq"
  | .lt => "Lt"
  | .ltEq => "LtEq"
  | .gt => "Gt"
  | .gtEq => "GtEq"
  | .concat => "Concat"
  | .bitAnd => "BitAnd"
  | .bitOr => "BitOr"
  | .bitNot => "BitNot"
  | .leftShift => "LeftShift"
  | .rightShift => "RightShift"
  | .leftParen => "LeftParen"
  | .rightParen => "RightParen"
  | .comma => "Comma"
  | .semicolon => "Semicolon"
  | .dot => "Dot"
  | .colon => "Colon"
  | .doubleColon => "DoubleColon"
  | .question => "Question"
  | .atSign => "At"

end Symbol

/-- Why a piece of text is no token of a query. -/
inductive LexicalError where
  | unterminatedString
  | unterminatedIdentifier
  | unterminatedBlob
  | strayBlobCharacter
  | oddBlobDigits
  | integerTooLarge
  | missingExponent
  | unknownCharacter (c : Char)
deriving DecidableEq

/-- The wording of the error. -/
def LexicalError.message : LexicalError → String
  | .unterminatedString => "Unterminated string literal"
  | .unterminatedIdentifier => "Unterminated quoted identifier"
  | .unterminatedBlob => "Unterminated blob literal"
  | .strayBlobCharacter => "Invalid character in blob literal"
  | .oddBlobDigits => "Odd number of hex digits in blob literal"
  | .integerTooLarge => "Invalid integer: number too large to fit in target type"
  | .missingExponent => "Invalid float: invalid float literal"
  | .unknownCharacter c => "Unexpected character: " ++ c.toString

/-- What a token is. Literals and quoted names are decoded: the quotes are gone and a doubled quote
stands for one. -/
inductive TokenKind where
  | integer (value : Nat)
  | float (value : Binary64)
  | string (text : String)
  | blob (bytes : List UInt8)
  | identifier (name : String)
  | keyword (word : Keyword)
  | symbol (mark : Symbol)
  | endOfInput
  | invalid (error : LexicalError)
deriving DecidableEq

namespace TokenKind

/-- The kind is an operator or a delimiter. -/
def isSymbol : TokenKind → Bool
  | .symbol _ => true
  | _ => false

/-- The keyword, when the kind is one. -/
def keyword? : TokenKind → Option Keyword
  | .keyword word => some word
  | _ => none

/-- The kinds are the same symbol or belong to the same class; the payload of the other classes, the
word of a keyword included, does not matter. -/
def sameShape : TokenKind → TokenKind → Bool
  | .integer _, .integer _ => true
  | .float _, .float _ => true
  | .string _, .string _ => true
  | .blob _, .blob _ => true
  | .identifier _, .identifier _ => true
  | .keyword _, .keyword _ => true
  | .symbol left, .symbol right => left == right
  | .endOfInput, .endOfInput => true
  | .invalid _, .invalid _ => true
  | _, _ => false

end TokenKind

/-- A token: its kind, the offset of its first byte and its text as written. -/
structure Token where
  kind : TokenKind
  start : Nat
  lexeme : String
deriving DecidableEq

namespace Token

/-- The bytes of the token. -/
def span (token : Token) : Span :=
  ⟨token.start, token.start + token.lexeme.utf8ByteSize⟩

/-- The token that stands behind the last one, at the given offset. -/
def eof (offset : Nat) : Token :=
  ⟨.endOfInput, offset, ""⟩

/-- The token is the end of the input. -/
def isEof (token : Token) : Bool :=
  token.kind == .endOfInput

end Token

end SelectRouting
