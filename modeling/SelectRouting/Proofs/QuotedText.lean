import SelectRouting.Proofs.TokenBoundary

/-!
# Quoted text

Text is quoted in one of four styles. In three of them the quote that closes the text is written twice
inside of it; a text in brackets cannot hold the closing one. Reading quoted text accepts exactly what
is written this way (`Token.readQuoted?_escaped`, `Token.eq_escaped_of_readQuoted?`), so a token that
begins with a quote is either an error or what its value is written as
(`Token.IsLexed.eq_encode`).
-/

namespace SelectRouting

namespace Text

/-- The characters of a text that is closed by `close`, which is written twice when `doubling`. -/
def escaped (close : Char) (doubling : Bool) (value : List Char) : List Char :=
  value.flatMap fun c => if doubling && c == close then [c, c] else [c]

section Escaped
variable {c close : Char} {doubling : Bool} {value : List Char}

@[simp] theorem escaped_nil : escaped close doubling [] = [] := rfl

theorem escaped_cons_of_ne (other : c ≠ close) :
    escaped close doubling (c :: value) = c :: escaped close doubling value := by
  simp [escaped, other]

theorem escaped_cons_close :
    escaped close true (close :: value) = close :: close :: escaped close true value := by
  simp [escaped]

/-- Without a closing quote the characters are written as they are. -/
theorem escaped_of_not_mem (none : close ∉ value) : escaped close doubling value = value := by
  induction value with
  | nil => rfl
  | cons c value ih =>
    have other : close ≠ c := List.ne_of_not_mem_cons none
    rw [escaped_cons_of_ne other.symm, ih (List.not_mem_of_not_mem_cons none)]

/-- What a value is written as has its characters besides quotes. -/
theorem filter_escaped (quote : isQuote close = true) :
    (escaped close doubling value).filter (fun c => !isQuote c) =
      value.filter fun c => !isQuote c := by
  induction value with
  | nil => rfl
  | cons c value ih =>
    by_cases closes : c = close
    · subst closes
      cases doubling with
      | false => simp [escaped]
      | true =>
        rw [escaped_cons_close, List.filter_cons_of_neg (by simp [quote]),
          List.filter_cons_of_neg (by simp [quote]), List.filter_cons_of_neg (by simp [quote]), ih]
    · rw [escaped_cons_of_ne closes, List.filter_cons, List.filter_cons, ih]

end Escaped
end Text

/-- How text is quoted. -/
inductive QuotingStyle where
  | singleQuotes
  | doubleQuotes
  | backticks
  | brackets
deriving DecidableEq

namespace QuotingStyle

/-- The character that opens the text. -/
def opening : QuotingStyle → Char
  | .singleQuotes => '\x27'
  | .doubleQuotes => '"'
  | .backticks => '\x60'
  | .brackets => '['

/-- The character that closes the text. -/
def closing : QuotingStyle → Char
  | .brackets => ']'
  | style => style.opening

/-- The closing character is written twice inside of the text. -/
def doubles : QuotingStyle → Bool
  | .brackets => false
  | _ => true

/-- The value as it is written. -/
def encode (style : QuotingStyle) (value : String) : String :=
  String.ofList (style.opening ::
    (Text.escaped style.closing style.doubles value.toList ++ [style.closing]))

/-- The value can be written in the style. -/
def Holds (style : QuotingStyle) (value : String) : Prop :=
  style.doubles = true ∨ style.closing ∉ value.toList

instance (style : QuotingStyle) (value : String) : Decidable (style.Holds value) :=
  inferInstanceAs (Decidable (_ ∨ _))

/-- Text between single quotes is a string, and a name in all other styles. -/
def kind : QuotingStyle → String → TokenKind
  | .singleQuotes, value => .string value
  | _, value => .identifier value

theorem eq_of_kind_string {style : QuotingStyle} {value text : String}
    (is : style.kind value = .string text) : style = .singleQuotes ∧ value = text := by
  cases style with
  | singleQuotes => exact ⟨rfl, TokenKind.string.inj is⟩
  | doubleQuotes => cases is
  | backticks => cases is
  | brackets => cases is

theorem eq_of_kind_identifier {style : QuotingStyle} {value text : String}
    (is : style.kind value = .identifier text) : style ≠ .singleQuotes ∧ value = text := by
  cases style with
  | singleQuotes => cases is
  | doubleQuotes => exact ⟨nofun, TokenKind.identifier.inj is⟩
  | backticks => exact ⟨nofun, TokenKind.identifier.inj is⟩
  | brackets => exact ⟨nofun, TokenKind.identifier.inj is⟩

/-- The error when the text is not closed. -/
def error : QuotingStyle → LexicalError
  | .singleQuotes => .unterminatedString
  | _ => .unterminatedIdentifier

end QuotingStyle

namespace Token
open Text

section Read
variable {c close : Char} {doubling : Bool} {cs value rest : List Char} {length : Nat}

theorem readQuoted?_cons_of_ne (other : c ≠ close) : readQuoted? close doubling (c :: cs) =
    (readQuoted? close doubling cs).map fun (value, length) => (c :: value, length + 1) := by
  cases cs with
  | nil => simp [readQuoted?, other]
  | cons d cs => simp [readQuoted?, other]

/-- What a value is written as is read as the value, up to the quote behind it. -/
theorem readQuoted?_escaped (holds : doubling = true ∨ close ∉ value)
    (stops : doubling = true → rest.head? ≠ some close) :
    readQuoted? close doubling (escaped close doubling value ++ close :: rest) =
      some (value, (escaped close doubling value).length + 1) := by
  induction value with
  | nil =>
    cases rest with
    | nil => simp [readQuoted?]
    | cons d rest =>
      have once : (doubling && d == close) = false := by
        cases doubling with
        | false => rfl
        | true => simpa using stops rfl
      simp [readQuoted?, once]
  | cons c value ih =>
    have later := ih (holds.imp_right List.not_mem_of_not_mem_cons)
    by_cases closes : c = close
    · -- A closing quote in the value can only be one that is doubled.
      have twice : doubling = true := holds.resolve_right fun none => none (by simp [closes])
      subst closes twice
      rw [escaped_cons_close, List.cons_append, List.cons_append, readQuoted?, if_pos (by simp),
        if_pos (by simp), later]
      rfl
    · rw [escaped_cons_of_ne closes, List.cons_append, readQuoted?_cons_of_ne closes, later]
      rfl

/-- Quoted text is what its value is written as. -/
theorem eq_escaped_of_readQuoted? (found : readQuoted? close doubling cs = some (value, length)) :
    cs.take length = escaped close doubling value ++ [close] ∧
      (doubling = true ∨ close ∉ value) := by
  induction cs using readQuoted?.induct close doubling generalizing value length with
  | case1 => cases found
  | case2 c closes =>
    rw [readQuoted?, if_pos closes] at found
    obtain ⟨rfl, rfl⟩ := Prod.mk.inj (Option.some.inj found)
    exact ⟨by simp [beq_iff_eq.mp closes], .inr List.not_mem_nil⟩
  | case3 c other =>
    rw [readQuoted?, if_neg other] at found
    cases found
  | case4 c d cs closes doubled ih =>
    rw [readQuoted?, if_pos closes, if_pos doubled] at found
    obtain ⟨⟨inner, more⟩, inside, same⟩ := Option.map_eq_some_iff.mp found
    obtain ⟨rfl, rfl⟩ := Prod.mk.inj same
    rw [Bool.and_eq_true, beq_iff_eq] at doubled
    obtain ⟨twice, rfl⟩ := doubled
    obtain ⟨written, _⟩ := ih inside
    subst twice
    refine ⟨?_, .inl rfl⟩
    rw [escaped_cons_close, List.take_succ_cons, List.take_succ_cons, written, beq_iff_eq.mp closes]
    rfl
  | case5 c d cs closes single =>
    rw [readQuoted?, if_pos closes, if_neg single] at found
    obtain ⟨rfl, rfl⟩ := Prod.mk.inj (Option.some.inj found)
    exact ⟨by simp [beq_iff_eq.mp closes], .inr List.not_mem_nil⟩
  | case6 c d cs other ih =>
    rw [readQuoted?, if_neg other] at found
    obtain ⟨⟨inner, more⟩, inside, same⟩ := Option.map_eq_some_iff.mp found
    obtain ⟨rfl, rfl⟩ := Prod.mk.inj same
    obtain ⟨written, holds⟩ := ih inside
    rw [beq_iff_eq] at other
    refine ⟨?_, holds.imp_right (List.not_mem_cons_of_ne_of_not_mem (Ne.symm other))⟩
    rw [escaped_cons_of_ne other, List.take_succ_cons, written, List.cons_append]

/-- What the character that opens quoted text makes of the text behind it. -/
theorem read_opening (style : QuotingStyle) (cs : List Char) : read style.opening cs =
    readText style.closing style.doubles style.kind style.error cs := by
  have noDouble : cs.head?.bind (Symbol.double? style.opening) = none := by
    rw [Option.bind_eq_none_iff]
    intro d _
    cases style <;> rfl
  rw [read, noDouble]
  cases style <;> rfl

/-- A quoting character opens quoted text, unless it is a closing bracket. -/
theorem opening_or_error (quote : isQuote c = true) (cs : List Char) :
    (∃ style : QuotingStyle, c = style.opening) ∨
      (read c cs).1 = .invalid (.unknownCharacter c) := by
  simp only [isQuote, Bool.or_eq_true, beq_iff_eq, or_assoc] at quote
  rcases quote with rfl | rfl | rfl | rfl | rfl
  · exact .inl ⟨.doubleQuotes, rfl⟩
  · exact .inl ⟨.backticks, rfl⟩
  · exact .inl ⟨.singleQuotes, rfl⟩
  · exact .inl ⟨.brackets, rfl⟩
  · have noDouble : cs.head?.bind (Symbol.double? ']') = none :=
      Option.bind_eq_none_iff.mpr fun _ _ => rfl
    right
    rw [read, noDouble]
    rfl

/-- A token that begins with a quote and is no error is written as its value is in one of the
styles. -/
theorem IsLexed.eq_encode {token : Token} (lexed : token.IsLexed)
    (valid : ∀ error, token.kind ≠ .invalid error)
    (quoted : token.lexeme.toList.head?.any isQuote = true) :
    ∃ (style : QuotingStyle) (value : String), style.Holds value ∧ token.kind = style.kind value ∧
      token.lexeme = style.encode value := by
  obtain ⟨c, cs, named, written⟩ := lexed
  have quote : isQuote c = true := by simpa [written] using quoted
  rcases opening_or_error quote cs with ⟨style, rfl⟩ | unknown
  · rw [read_opening, readText] at named written
    split at named
    · next inner length found =>
      rw [found] at written
      obtain ⟨text, holds⟩ := eq_escaped_of_readQuoted? found
      refine ⟨style, String.ofList inner, ?_, named, ?_⟩
      · rw [QuotingStyle.Holds, String.toList_ofList]
        exact holds
      · rw [written, QuotingStyle.encode, String.toList_ofList, ← text]
    · exact absurd named (valid _)
  · exact absurd (named.trans unknown) (valid _)

end Read

end Token

end SelectRouting
