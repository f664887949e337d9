import Mathlib.Data.List.TakeWhile
import SelectRouting.Proofs.PlacedNames
import SelectRouting.Proofs.QuotedText
import SelectRouting.Proofs.StringLiterals

/-!
# Literals and their values

A literal is read as the value that it was written for, and quoted text is nothing else than its value
as it is written (`Token.literals_decoded`).
-/

namespace SelectRouting

namespace Text

/-- The digit to the base sixteen with the value `n`. -/
def hexDigit (capital : Bool) (n : Nat) : Char :=
  (if capital then "0123456789ABCDEF" else "0123456789abcdef").toList.getD n '0'

/-- A byte as two digits to the base sixteen, each with a small or a capital letter. -/
structure WrittenByte where
  value : UInt8
  highCapital : Bool
  lowCapital : Bool

/-- The two digits of the byte. -/
def WrittenByte.digits (byte : WrittenByte) : List Char :=
  [hexDigit byte.highCapital (byte.value.toNat / 16), hexDigit byte.lowCapital (byte.value.toNat % 16)]

/-- The bytes between the quotes of a blob, the letter in front of it a small or a capital one. -/
def blobText (capital : Bool) (bytes : List WrittenByte) : String :=
  String.ofList ((if capital then 'X' else 'x') ::
    '\x27' :: (bytes.flatMap WrittenByte.digits ++ ['\x27']))

end Text

namespace Token
open Text

/-- Text that is read as one token has that token alone. -/
theorem tokenize_of_read {c : Char} {cs : List Char} {kind : TokenKind}
    (noTrivia : Trivia.between.length (c :: cs) = 0) (reads : read c cs = (kind, cs.length)) :
    tokenize (String.ofList (c :: cs)) = [⟨kind, 0, String.ofList (c :: cs)⟩,
      eof (String.ofList (c :: cs)).utf8ByteSize] := by
  rw [← List.append_nil cs] at noTrivia reads
  have whole := @listFrom_token 0 [] c cs kind noTrivia (by simpa using reads)
  rw [List.append_nil] at whole
  rw [tokenize, list, String.toList_ofList, whole]
  rfl

section Quoted
variable {style : QuotingStyle} {value : String}

theorem noTrivia_opening (style : QuotingStyle) (cs : List Char) :
    Trivia.between.length (style.opening :: cs) = 0 := by
  apply noTrivia_iff.mpr
  cases style <;> exact ⟨by decide, nofun, nofun⟩

/-- What a value is written as is read as the value. -/
theorem tokenize_encode (holds : style.Holds value) : tokenize (style.encode value) =
    [⟨style.kind value, 0, style.encode value⟩, eof (style.encode value).utf8ByteSize] := by
  have found : readQuoted? style.closing style.doubles
      (escaped style.closing style.doubles value.toList ++ [style.closing]) =
        some (value.toList, (escaped style.closing style.doubles value.toList).length + 1) :=
    readQuoted?_escaped holds fun _ => by simp
  refine tokenize_of_read (noTrivia_opening style _) ?_
  rw [read_opening, readText, found]
  dsimp only
  rw [String.ofList_toList, List.length_append, List.length_singleton]

end Quoted

section Blob
variable {bytes : List WrittenByte}

/-- A digit to the base sixteen has the value that it is written for, in either case. -/
theorem hexDigit_spec (capital : Bool) {n : Nat} (small : n < 16) :
    isHexDigit (hexDigit capital n) = true ∧ hexValue (hexDigit capital n) = n := by
  have all : ∀ capital : Bool, ∀ n < 16,
      isHexDigit (hexDigit capital n) = true ∧ hexValue (hexDigit capital n) = n := by
    decide
  exact all capital n small

theorem isHexDigit_of_mem_digits {byte : WrittenByte} {c : Char} (member : c ∈ byte.digits) :
    isHexDigit c = true := by
  have range := byte.value.toNat_lt
  rcases List.mem_cons.mp member with rfl | last
  · exact (hexDigit_spec _ (by omega)).1
  · rw [List.mem_singleton.mp last]
    exact (hexDigit_spec _ (by omega)).1

/-- The digits of bytes are read as the bytes. -/
theorem bytesOfHex_digits : bytesOfHex (bytes.flatMap WrittenByte.digits) =
    bytes.map WrittenByte.value := by
  induction bytes with
  | nil => rfl
  | cons byte bytes ih =>
    have range := byte.value.toNat_lt
    have halves : 16 * (byte.value.toNat / 16) + byte.value.toNat % 16 = byte.value.toNat :=
      Nat.div_add_mod _ _
    rw [List.flatMap_cons, WrittenByte.digits, List.cons_append, List.cons_append, List.nil_append,
      bytesOfHex, (hexDigit_spec _ (by omega)).2, (hexDigit_spec _ (by omega)).2, halves, ih,
      UInt8.ofNat_toNat, List.map_cons]

theorem length_digits : (bytes.flatMap WrittenByte.digits).length = 2 * bytes.length := by
  induction bytes with
  | nil => rfl
  | cons byte bytes ih =>
    rw [List.flatMap_cons, List.length_append, ih, List.length_cons]
    simp only [WrittenByte.digits, List.length_cons, List.length_nil]
    omega

theorem readBlob_digits : readBlob (bytes.flatMap WrittenByte.digits ++ ['\x27']) =
    (.blob (bytes.map WrittenByte.value), (bytes.flatMap WrittenByte.digits).length + 1) := by
  have digits : ∀ c ∈ bytes.flatMap WrittenByte.digits, isHexDigit c = true := by
    intro c member
    obtain ⟨byte, _, inside⟩ := List.mem_flatMap.mp member
    exact isHexDigit_of_mem_digits inside
  have stops : ∀ d ∈ ['\x27'].head?, isHexDigit d = false := by
    simp
    decide
  obtain ⟨taken, left⟩ := takeWhile_append_stop digits stops
  rw [readBlob, taken, left, length_digits, bytesOfHex_digits]
  simp

theorem read_blobLetter (capital : Bool) (cs : List Char) :
    read (if capital then 'X' else 'x') ('\x27' :: cs) = ((readBlob cs).1, (readBlob cs).2 + 1) := by
  cases capital <;> rfl

/-- The digits of bytes between the quotes of a blob are read as the bytes. -/
theorem tokenize_blobText (capital : Bool) (bytes : List WrittenByte) :
    tokenize (blobText capital bytes) =
      [⟨.blob (bytes.map WrittenByte.value), 0, blobText capital bytes⟩,
        eof (blobText capital bytes).utf8ByteSize] := by
  refine tokenize_of_read (noTrivia_of_isStart ?_ _) ?_
  · cases capital <;> decide
  · rw [read_blobLetter, readBlob_digits, List.length_cons, List.length_append, List.length_singleton]

end Blob

section Integer
variable {c : Char} {cs : List Char} {n : Nat}

/-- The digits of a number spell the number. -/
theorem ofDigits_toDigits : Decimal.ofDigits (Nat.toDigits 10 n) = n :=
  Nat.ofDigitChars_toDigits (by decide) (by decide)

theorem read_of_isDigit (digit : c.isDigit = true) : read c cs = readNumber c cs := by
  have other {d : Char} (noDigit : d.isDigit = false) : (c == d) = false := by
    apply beq_false_of_ne
    rintro rfl
    rw [noDigit] at digit
    cases digit
  have noDouble : cs.head?.bind (Symbol.double? c) = none := by
    rw [Option.bind_eq_none_iff]
    intro d _
    unfold Symbol.double?
    split <;> first | rfl | cases digit
  rw [read, noDouble]
  simp only [@other '\x27' rfl, @other '"' rfl, @other '\x60' rfl, @other '[' rfl, @other 'X' rfl,
    @other 'x' rfl, digit, Bool.or_self, Bool.false_and, Bool.false_eq_true, if_false, if_true]

/-- Digits alone are an integer, or an error when it is too large. -/
theorem readNumber_of_digits (digits : ∀ d ∈ cs, d.isDigit = true) : readNumber c cs =
    (if Decimal.ofDigits (c :: cs) ≤ greatestInteger then .integer (Decimal.ofDigits (c :: cs))
      else .invalid .integerTooLarge, cs.length) := by
  have taken : cs.takeWhile Char.isDigit = cs := List.takeWhile_eq_self_iff.mpr digits
  have left : cs.dropWhile Char.isDigit = [] := List.dropWhile_eq_nil_iff.mpr digits
  rw [readNumber, taken, left]
  rfl

/-- The decimal digits of a number are read as the number, up to the greatest integer. -/
theorem tokenize_toString (n : Nat) : tokenize (toString n) =
    [⟨if n ≤ greatestInteger then .integer n else .invalid .integerTooLarge, 0, toString n⟩,
      eof (toString n).utf8ByteSize] := by
  obtain ⟨c, cs, chars⟩ := List.exists_cons_of_ne_nil (@Nat.toDigits_ne_nil n 10)
  have written : toString n = String.ofList (c :: cs) := by
    rw [← chars]
    rfl
  have digits (d : Char) (member : d ∈ c :: cs) : d.isDigit = true := by
    rw [← chars] at member
    exact Nat.isDigit_of_mem_toDigits (by decide) (by decide) member
  have digit := digits c List.mem_cons_self
  rw [written]
  apply tokenize_of_read (noTrivia_of_isWordCharacter (isWordCharacter_of_isDigit digit) cs)
  rw [read_of_isDigit digit,
    readNumber_of_digits fun d member => digits d (List.mem_cons_of_mem _ member), ← chars,
    ofDigits_toDigits]

end Integer

/-- **Literals are read as what was written.** In each style of quoting the written form of a value is
read as that value alone, the digits of bytes between the quotes of a blob as the bytes, and the
decimal digits of a number as the number up to 2 ^ 63 - 1 and as an error beyond. Conversely each
string and each quoted name of a text is the written form of its value in one of the styles. -/
theorem literals_decoded :
    (∀ (style : QuotingStyle) (value : String), style.Holds value → tokenize (style.encode value) =
      [⟨style.kind value, 0, style.encode value⟩, eof (style.encode value).utf8ByteSize]) ∧
    (∀ (capital : Bool) (bytes : List WrittenByte), tokenize (blobText capital bytes) =
      [⟨.blob (bytes.map WrittenByte.value), 0, blobText capital bytes⟩,
        eof (blobText capital bytes).utf8ByteSize]) ∧
    (∀ n : Nat, tokenize (toString n) =
      [⟨if n ≤ 9223372036854775807 then .integer n else .invalid .integerTooLarge, 0, toString n⟩,
        eof (toString n).utf8ByteSize]) ∧
    ∀ (text : String), ∀ token ∈ list text, ∀ value : String,
      (token.kind = .string value → token.lexeme = QuotingStyle.singleQuotes.encode value) ∧
      (token.kind = .identifier value → token.lexeme.toList.head?.any isQuote = true →
        ∃ style : QuotingStyle, style ≠ .singleQuotes ∧ style.Holds value ∧
          token.lexeme = style.encode value) := by
  refine ⟨fun style value holds => tokenize_encode holds, tokenize_blobText, tokenize_toString, ?_⟩
  intro text token member value
  have lexed := areLexed_list text token member
  constructor
  · intro isString
    have quoted : token.lexeme.toList.head?.any isQuote = true := by
      obtain ⟨c, cs, named, written⟩ := lexed
      obtain ⟨rfl, -⟩ := read_of_string (Prod.ext (named.symm.trans isString) rfl)
      rw [written, String.toList_ofList]
      rfl
    obtain ⟨style, written, _, is, same⟩ := lexed.eq_encode (by simp [isString]) quoted
    obtain ⟨rfl, rfl⟩ := QuotingStyle.eq_of_kind_string (is.symm.trans isString)
    exact same
  · intro isName quoted
    obtain ⟨style, written, holds, is, same⟩ := lexed.eq_encode (by simp [isName]) quoted
    obtain ⟨noString, rfl⟩ := QuotingStyle.eq_of_kind_identifier (is.symm.trans isName)
    exact ⟨style, noString, holds, same⟩

/-- A name in brackets, and one between quotes that are doubled in it. -/
theorem literals_decoded_of_names :
    let name : Token := ⟨.identifier "a\"b", 7, "\"a\"\"b\""⟩
    QuotingStyle.brackets.Holds "user 'id" ∧
      tokenize "[user 'id]" = [⟨.identifier "user 'id", 0, "[user 'id]"⟩, eof 10] ∧
      name ∈ list "SELECT \"a\"\"b\"FROM t" ∧ ∃ style : QuotingStyle, style ≠ .singleQuotes ∧
        style.Holds "a\"b" ∧ name.lexeme = style.encode "a\"b" := by
  intro name
  obtain ⟨encoded, -, -, written⟩ := literals_decoded
  have holds : QuotingStyle.brackets.Holds "user 'id" := by decide
  have among : name ∈ list "SELECT \"a\"\"b\"FROM t" := by decide +kernel
  refine ⟨holds, encoded .brackets "user 'id" holds, among, ?_⟩
  exact (written _ name among "a\"b").2 rfl (by decide)

end Token

end SelectRouting
