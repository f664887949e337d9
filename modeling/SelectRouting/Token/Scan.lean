import SelectRouting.Text.Alphabetic
import SelectRouting.Text.Blank
import SelectRouting.Token

/-!
# Reading tokens

A text is cut into tokens and the trivia between them, which are blank characters and comments.
Reading never fails as a whole: text that is no token becomes a token that carries the reason.

Every reader looks at the characters behind the first one of its token and says how many of them
belong to the token, so that the tokens and the trivia tile the text by construction.
-/

namespace SelectRouting

/-- Where in the trivia between two tokens a character stands. A block comment remembers whether the
character before was a star; the star that opens the comment counts. -/
inductive Trivia where
  | between
  | lineComment
  | blockComment (afterStar : Bool)
deriving DecidableEq

/-- The number of characters at the front of the text that belong to no token: blanks, comments from
two hyphens to the end of the line, and comments from a slash and a star to a star and a slash. A
comment that is not closed reaches to the end of the text. -/
def Trivia.length : Trivia → List Char → Nat
  | _, [] => 0
  | .between, c :: cs =>
    if Text.isBlank c then Trivia.between.length cs + 1
    else if c == '-' && cs.head? == some '-' then Trivia.lineComment.length cs + 1
    else if c == '/' && cs.head? == some '*' then (Trivia.blockComment false).length cs + 1
    else 0
  | .lineComment, c :: cs =>
    (if c == '\n' then Trivia.between.length cs else Trivia.lineComment.length cs) + 1
  | .blockComment afterStar, c :: cs =>
    (if afterStar && c == '/' then Trivia.between.length cs
      else (Trivia.blockComment (c == '*')).length cs) + 1

namespace Token

/-- The greatest value of an integer literal. -/
def greatestInteger : Nat := 0x7FFFFFFFFFFFFFFF

/-- The character continues a word. -/
def isWordCharacter (c : Char) : Bool :=
  Text.isAlphabetic c || Text.isNumeric c || c == '_' || c == '$'

/-- The rest of a word that begins with `first`: a keyword or a name. -/
def readWord (first : Char) (cs : List Char) : TokenKind × Nat :=
  let tail := cs.takeWhile isWordCharacter
  let word := String.ofList (first :: tail)
  (match Keyword.lookup? word with
    | some keyword => .keyword keyword
    | none => .identifier word, tail.length)

/-- The digits behind a decimal point, when the text begins with a point and a digit. -/
def fractionDigits : List Char → List Char
  | '.' :: cs => cs.takeWhile Char.isDigit
  | _ => []

/-- An exponent: its sign, its digits, and how many characters it takes. -/
structure ExponentPart where
  negative : Bool
  digits : List Char
  length : Nat

/-- The exponent at the front of the text: the letter and a digit or a sign behind it. Behind a sign
the digits may be missing. -/
def exponentPart? : List Char → Option ExponentPart
  | e :: c :: cs =>
    if e == 'e' || e == 'E' then
      if c.isDigit then
        let digits := c :: cs.takeWhile Char.isDigit
        some ⟨false, digits, digits.length + 1⟩
      else if c == '+' || c == '-' then
        let digits := cs.takeWhile Char.isDigit
        some ⟨c == '-', digits, digits.length + 2⟩
      else none
    else none
  | _ => none

/-- The rest of a number that begins with the digit `first`. Without a fraction and an exponent it
is an integer. -/
def readNumber (first : Char) (cs : List Char) : TokenKind × Nat :=
  let whole := first :: cs.takeWhile Char.isDigit
  let behindWhole := cs.dropWhile Char.isDigit
  let fraction := fractionDigits behindWhole
  let fractionLength := if fraction.isEmpty then 0 else fraction.length + 1
  let length := whole.length - 1 + fractionLength
  match exponentPart? (behindWhole.drop fractionLength) with
  | some exponent =>
    (if exponent.digits.isEmpty then .invalid .missingExponent
      else
        let power : Int := Decimal.ofDigits exponent.digits
        .float (.ofDecimal ⟨Decimal.ofDigits (whole ++ fraction),
          (if exponent.negative then -power else power) - fraction.length⟩),
      length + exponent.length)
  | none =>
    (if fraction.isEmpty then
        let value := Decimal.ofDigits whole
        if value ≤ greatestInteger then .integer value else .invalid .integerTooLarge
      else .float (.ofDecimal ⟨Decimal.ofDigits (whole ++ fraction), -fraction.length⟩),
      length)

/-- Decodes text up to the character `close`: the value, and how many characters it takes with that
character. When `doubling`, the character twice stands for itself once. -/
def readQuoted? (close : Char) (doubling : Bool) : List Char → Option (List Char × Nat)
  | [] => none
  | [c] => if c == close then some ([], 1) else none
  | c :: d :: cs =>
    if c == close then
      if doubling && d == close then
        (readQuoted? close doubling cs).map fun (value, length) => (close :: value, length + 2)
      else some ([], 1)
    else (readQuoted? close doubling (d :: cs)).map fun (value, length) => (c :: value, length + 1)

/-- The rest of quoted text. Text that is not closed reaches to the end. -/
def readText (close : Char) (doubling : Bool) (kind : String → TokenKind) (error : LexicalError)
    (cs : List Char) : TokenKind × Nat :=
  match readQuoted? close doubling cs with
  | some (value, length) => (kind (String.ofList value), length)
  | none => (.invalid error, cs.length)

/-- The character is a digit to the base sixteen. -/
def isHexDigit (c : Char) : Bool :=
  c.isDigit || ('a' ≤ c && c ≤ 'f') || ('A' ≤ c && c ≤ 'F')

/-- The value of a digit to the base sixteen. -/
def hexValue (c : Char) : Nat :=
  if c.isDigit then c.toNat - '0'.toNat
  else if 'a' ≤ c then c.toNat - 'a'.toNat + 10
  else c.toNat - 'A'.toNat + 10

/-- The bytes of the digits, two digits a byte. -/
def bytesOfHex : List Char → List UInt8
  | high :: low :: digits => .ofNat (16 * hexValue high + hexValue low) :: bytesOfHex digits
  | _ => []

/-- The rest of a blob behind its opening quote. The character behind the digits belongs to the
token, also when it is not the closing quote. -/
def readBlob (cs : List Char) : TokenKind × Nat :=
  let digits := cs.takeWhile isHexDigit
  match (cs.dropWhile isHexDigit).head? with
  | none => (.invalid .unterminatedBlob, digits.length)
  | some c =>
    (if c != '\x27' then .invalid .strayBlobCharacter
      else if digits.length % 2 == 1 then .invalid .oddBlobDigits
      else .blob (bytesOfHex digits),
      digits.length + 1)

/-- The kind of the token that begins with `c`, and how many of the characters `cs` behind it belong
to the token. -/
def read (c : Char) (cs : List Char) : TokenKind × Nat :=
  match cs.head?.bind (Symbol.double? c) with
  | some mark => (.symbol mark, 1)
  | none =>
    if c == '\x27' then readText c true .string .unterminatedString cs
    else if c == '"' || c == '\x60' then readText c true .identifier .unterminatedIdentifier cs
    else if c == '[' then readText ']' false .identifier .unterminatedIdentifier cs
    else if (c == 'X' || c == 'x') && cs.head? == some '\x27' then
      let (kind, length) := readBlob (cs.drop 1)
      (kind, length + 1)
    else if c.isDigit then readNumber c cs
    else if Text.isAlphabetic c || c == '_' then readWord c cs
    else
      match Symbol.single? c with
      | some mark => (.symbol mark, 0)
      | none => (.invalid (.unknownCharacter c), 0)

/-- The tokens of a text whose first character stands at `offset` and whose first `skip` characters
are already accounted for. -/
def listFrom (offset : Nat) : (skip : Nat) → List Char → List Token
  | _, [] => []
  | skip + 1, c :: cs => listFrom (offset + c.utf8Size) skip cs
  | 0, c :: cs =>
    match Trivia.between.length (c :: cs) with
    | skip + 1 => listFrom (offset + c.utf8Size) skip cs
    | 0 =>
      let (kind, length) := read c cs
      ⟨kind, offset, String.ofList (c :: cs.take length)⟩ ::
        listFrom (offset + c.utf8Size) length cs

/-- The tokens of a text, the end of the input left out. -/
def list (text : String) : List Token :=
  listFrom 0 0 text.toList

/-- The tokens of a text, the end of the input last. -/
def tokenize (text : String) : List Token :=
  list text ++ [eof text.utf8ByteSize]

/-- The first `n` answers of a reader that is asked for one token after another; behind the last
token it keeps answering the end of the input. -/
def firstReads (n : Nat) (text : String) : List Token :=
  let tokens := list text
  tokens.take n ++ List.replicate (n - tokens.length) (eof text.utf8ByteSize)

end Token

end SelectRouting
