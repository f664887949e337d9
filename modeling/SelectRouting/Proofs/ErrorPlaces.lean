import SelectRouting.Proofs.FailingQueries
import SelectRouting.Proofs.TokenNumbers

/-!
# Where the errors point

The error of a query that is rejected points at one token of its text (`Statement.errors_placed`). It is
the first token that could not be read, if there is one. Otherwise the kind of the error says what
stands there: the token itself, the words that begin a second query body or a subquery, or a parenthesis
where a table is required.
-/

namespace SelectRouting

/-- The error is about the token between `front` and `behind`, or a table is required where the token, a
parenthesis, stands. Behind it the end of the input is the last token. -/
inductive ParseError.IsPlaced (dialect : Dialect) (front : List Token) (token : Token)
    (behind : List Token) : ParseError → Prop where
  | token {error : ParseError} : error.IsAbout token behind → IsPlaced dialect front token behind error
  | table {rest : List Token} {last : Token} : behind = rest ++ [last] →
      token.kind = .symbol .leftParen → Query.AwaitsTable dialect (token :: rest) front →
        IsPlaced dialect front token behind (.subquery token.span)

theorem ParseError.IsAbout.span {error : ParseError} {token : Token} {behind : List Token}
    (about : error.IsAbout token behind) : error.span = token.span := by
  cases about <;> rfl

theorem ParseError.IsPlaced.span {dialect : Dialect} {error : ParseError} {front behind : List Token}
    {token : Token} (placed : error.IsPlaced dialect front token behind) : error.span = token.span := by
  cases placed with
  | token about => exact about.span
  | table => rfl

namespace Token
variable {text : String} {front behind : List Token} {token : Token}

theorem tokenize_starts (text : String) :
    (tokenize text).Pairwise fun first second => first.start < second.start :=
  List.pairwise_iff_getElem.mpr fun _ _ first second before =>
    start_lt_start_of_lt (List.getElem?_eq_getElem first) (List.getElem?_eq_getElem second) before

/-- No two tokens of a text have the same span. -/
theorem span_ne (stands : tokenize text = front ++ token :: behind) :
    ∀ other ∈ front ++ behind, other.span ≠ token.span := by
  intro other member same
  have starts := tokenize_starts text
  rw [stands] at starts
  obtain ⟨_, later, earlier⟩ := List.pairwise_append.mp starts
  have start : other.start = token.start := congrArg Span.start same
  rcases List.mem_append.mp member with member | member
  · exact absurd start (Nat.ne_of_lt (earlier other member token List.mem_cons_self))
  · exact absurd start.symm (Nat.ne_of_lt ((List.pairwise_cons.mp later).1 other member))

end Token

namespace Cursor
variable {tokens : List Token} {text : String} {error : ParseError}

/-- The lexical error of tokens is that of the first one that could not be read. -/
theorem firstLexicalError?_eq_some : firstLexicalError? tokens = some error ↔
    ∃ front token behind cause, tokens = front ++ token :: behind ∧ token.kind = .invalid cause ∧
      (∀ other ∈ front, ∀ cause, other.kind ≠ .invalid cause) ∧ error = .lexical cause token.span := by
  unfold firstLexicalError?
  rw [List.findSome?_eq_some_iff]
  constructor
  · rintro ⟨front, token, behind, stands, found, passed⟩
    split at found
    · next cause is =>
      obtain rfl := Option.some.inj found
      refine ⟨front, token, behind, cause, stands, is, fun other member cause invalid => ?_, rfl⟩
      simpa [invalid] using passed other member
    · cases found
  · rintro ⟨front, token, behind, cause, stands, is, valid, rfl⟩
    refine ⟨front, token, behind, stands, by simp [is], fun other member => ?_⟩
    split
    · next cause invalid => exact absurd invalid (valid other member cause)
    · rfl

/-- The end of the input is no lexical error. -/
theorem firstLexicalError?_tokenize (text : String) :
    firstLexicalError? (Token.tokenize text) = firstLexicalError? (Token.list text) := by
  unfold firstLexicalError? Token.tokenize
  rw [List.findSome?_append]
  simp [Token.eof]

end Cursor

namespace Statement
open Step

variable {dialect : Dialect} {text : String} {error : ParseError}

/-- A text that could not be read as tokens is rejected for it, whatever else is wrong. -/
theorem ofText_of_lexical (lexical : Cursor.firstLexicalError? (Token.tokenize text) = some error) :
    ofText dialect text = .error error := by
  rw [Cursor.firstLexicalError?_tokenize] at lexical
  simp [ofText, analyze, Cursor.ofText, lexical]

/-- A query is rejected for a part that is no token, or by its reader. -/
theorem ofText_error (rejected : ofText dialect text = .error error) :
    Cursor.firstLexicalError? (Token.tokenize text) = some error ∨
      ∃ after, Fails (AnalysisStep.select dialect) { cursor := { text, rest := Token.list text } } error
        after := by
  rw [Cursor.firstLexicalError?_tokenize]
  cases lexical : Cursor.firstLexicalError? (Token.list text) with
  | some first =>
    refine .inl (congrArg some ?_)
    simpa [ofText, analyze, Cursor.ofText, lexical] using rejected
  | none =>
    have ran : (ofCursor dialect { text, rest := Token.list text }).1 = .error error := by
      simpa [ofText, analyze, Cursor.ofText, lexical] using rejected
    exact .inr ⟨_, Prod.ext (error_of_map ran) rfl⟩

/-- What the reader of a query rejects is placed in the text. -/
theorem placed_of_rejects
    (rejects : Cursor.Rejects (Query.AwaitsTable dialect) { text, rest := Token.list text } error) :
    ∃ front token behind, Token.tokenize text = front ++ token :: behind ∧
      error.IsPlaced dialect front token behind := by
  cases rejects with
  | token blames =>
    obtain ⟨front, token, behind, stands, about⟩ := blames
    exact ⟨front, token, behind, stands, .token about⟩
  | @table front behind token stands is awaits =>
    refine ⟨front, token, behind ++ [.eof text.utf8ByteSize], ?_, .table rfl is awaits⟩
    rw [Token.tokenize, show Token.list text = _ from stands]
    simp

/-- The error of a query that is rejected has the span of exactly one token of the text. If some token
could not be read, the first one of them is reported. Otherwise the error is about its token: this is
what was found in place of what was expected, it begins a second query body or a subquery, or it is a
parenthesis where a table is required. -/
theorem errors_placed (shipped : dialect ∈ Dialect.shipped) (text : String) :
    (∀ front token behind cause, Token.tokenize text = front ++ token :: behind →
      token.kind = .invalid cause → (∀ other ∈ front, ∀ cause, other.kind ≠ .invalid cause) →
        ofText dialect text = .error (.lexical cause token.span)) ∧
    ∀ error, ofText dialect text = .error error →
      ∃ front token behind, Token.tokenize text = front ++ token :: behind ∧ error.span = token.span ∧
        (∀ other ∈ front ++ behind, other.span ≠ token.span) ∧
        ((∀ other ∈ Token.tokenize text, ∀ cause, other.kind ≠ .invalid cause) →
          error.IsPlaced dialect front token behind) := by
  constructor
  · intro front token behind cause stands is first
    exact ofText_of_lexical (Cursor.firstLexicalError?_eq_some.mpr ⟨front, token, behind, cause, stands, is,
      first, rfl⟩)
  · intro error rejected
    rcases ofText_error rejected with lexical | ⟨after, fails⟩
    · obtain ⟨front, token, behind, cause, stands, is, _, rfl⟩ :=
        Cursor.firstLexicalError?_eq_some.mp lexical
      refine ⟨front, token, behind, stands, rfl, Token.span_ne stands, fun valid => ?_⟩
      exact absurd is (valid token (by simp [stands]) cause)
    · have plain := Dialect.isPlain_of_shipped shipped
      obtain ⟨front, token, behind, stands, placed⟩ :=
        placed_of_rejects (AnalysisStep.select_rejects plain (Token.areLexed_list text) fails)
      exact ⟨front, token, behind, stands, placed.span, Token.span_ne stands, fun _ => placed⟩

/-- A subquery in place of the second table is reported at its parenthesis. -/
theorem errors_placed_of_missing_table : Dialect.mysql ∈ Dialect.shipped ∧
    ofText .mysql "SELECT a FROM t, (u)" = .error (.subquery ⟨17, 18⟩) ∧
    ∃ front token behind, Token.tokenize "SELECT a FROM t, (u)" = front ++ token :: behind ∧
      (ParseError.subquery ⟨17, 18⟩).span = token.span ∧
      (∀ other ∈ front ++ behind, other.span ≠ token.span) ∧
      ((∀ other ∈ Token.tokenize "SELECT a FROM t, (u)", ∀ cause, other.kind ≠ .invalid cause) →
        (ParseError.subquery ⟨17, 18⟩).IsPlaced .mysql front token behind) := by
  have shipped : Dialect.mysql ∈ Dialect.shipped := by simp [Dialect.shipped]
  have rejected : ofText .mysql "SELECT a FROM t, (u)" = .error (.subquery ⟨17, 18⟩) := by
    decide +kernel
  exact ⟨shipped, rejected, (errors_placed shipped "SELECT a FROM t, (u)").2 _ rejected⟩

end Statement

end SelectRouting
