import Mathlib.Computability.Language
import SelectRouting.Proofs.QueryFronts

/-!
# The order of the words and clauses of a query

A query begins with `SELECT` and the words that may stand behind it (`Query.Modifies`). The parts
behind its tables stand in the order of their clauses, which is a language over parts
(`Piece.clauses`). Each of the clauses begins with its words, so nothing else stands directly behind
the tables (`Piece.frontKind_of_clauses`). The tokens at the end are a row limit, a locking read and a
semicolon, as far as the dialect has them, which is a language over tokens (`Dialect.closing`). They
are words, numbers and placeholders (`Dialect.areClosing_closing`).
-/

namespace SelectRouting

open Token (AreLexed)

namespace Piece

open scoped Computability

/-- One of the words. -/
def word (among : List Keyword) : Language Piece :=
  {pieces | ∃ token, pieces = [.words [token]] ∧ ∃ word ∈ among, token.kind = .keyword word}

/-- The comma between two keys. -/
def comma : Language Piece :=
  {pieces | ∃ token, pieces = [.words [token]] ∧ token.kind = .symbol .comma}

/-- An expression as a whole. -/
def whole : Language Piece :=
  {pieces | ∃ phrases, pieces = [.expression phrases]}

/-- A key and its direction. -/
def key : Language Piece :=
  whole * (1 + word [.ASC, .DESC])

/-- Keys between commas. -/
def keys : Language Piece :=
  (key * comma)∗ * key

/-- An expression behind the word that introduces it, if the word stands there. -/
def introduced (introducer : Keyword) : Language Piece :=
  1 + word [introducer] * whole

/-- The keys of `GROUP BY`, and behind them the words that ask for totals. -/
def grouping : Language Piece :=
  1 + word [.GROUP] * word [.BY] * keys * (word [.WITH, .ROLLUP])∗

/-- The keys of `ORDER BY`. -/
def ordering : Language Piece :=
  1 + word [.ORDER] * word [.BY] * keys

/-- The clauses between the tables and the row limit. -/
def clauses : Language Piece :=
  introduced .WHERE * grouping * introduced .HAVING * ordering

/-- What is in the language begins with a word, unless it is empty. -/
def BeginsWithWord (language : Language Piece) : Prop :=
  ∀ pieces ∈ language, pieces = [] ∨
    ∃ token others, pieces = .words [token] :: others ∧ ∃ word, token.kind = .keyword word

section BeginsWithWord
variable {language other : Language Piece}

theorem BeginsWithWord.mul (left : BeginsWithWord language) (right : BeginsWithWord other) :
    BeginsWithWord (language * other) := by
  intro pieces member
  obtain ⟨first, among, second, amongOther, rfl⟩ := Language.mem_mul.mp member
  rcases left first among with rfl | ⟨token, others, rfl, is⟩
  · exact right second amongOther
  · exact .inr ⟨token, others ++ second, rfl, is⟩

/-- A clause that may be missing begins with the word that introduces it. -/
theorem BeginsWithWord.clause (among : List Keyword) (language : Language Piece) :
    BeginsWithWord (1 + word among * language) := by
  intro pieces member
  rcases (Language.mem_add _ _ _).mp member with none | member
  · exact .inl none
  · obtain ⟨_, ⟨token, rfl, word, _, is⟩, others, _, rfl⟩ := Language.mem_mul.mp member
    exact .inr ⟨token, others, rfl, word, is⟩

theorem beginsWithWord_clauses : BeginsWithWord clauses := by
  have grouping : BeginsWithWord grouping := by
    rw [Piece.grouping, mul_assoc, mul_assoc]
    exact .clause _ _
  have ordering : BeginsWithWord ordering := by
    rw [Piece.ordering, mul_assoc]
    exact .clause _ _
  exact (((BeginsWithWord.clause _ _).mul grouping).mul (.clause _ _)).mul ordering

end BeginsWithWord

/-- The later clauses begin with a keyword, if there are any. -/
theorem frontKind_of_clauses {pieces : List Piece} (among : pieces ∈ clauses) (rest : List Token) :
    Token.frontKind (pieces.flatMap tokens ++ rest) = Token.frontKind rest ∨
      ∃ word, Token.frontKind (pieces.flatMap tokens ++ rest) = .keyword word := by
  rcases beginsWithWord_clauses pieces among with rfl | ⟨token, others, rfl, word, is⟩
  · exact .inl rfl
  · exact .inr ⟨word, is⟩

end Piece

namespace Closing

open scoped Computability

/-- One of the keywords. -/
def word (among : List Keyword) : Language Token :=
  {tokens | ∃ token, tokens = [token] ∧ ∃ word ∈ among, token.kind = .keyword word}

/-- A token that is spelled like the word, which need not be a keyword. -/
def spelled (word : String) : Language Token :=
  {tokens | ∃ token, tokens = [token] ∧ Text.sameIgnoringCase token.lexeme word = true}

/-- A mark. -/
def mark (sign : Symbol) : Language Token :=
  {tokens | ∃ token, tokens = [token] ∧ token.kind = .symbol sign}

/-- An operand of a row limit: a number or a placeholder. -/
def rowCount : Language Token :=
  {tokens | ∃ token, tokens = [token] ∧
    ((∃ value, token.kind = .integer value) ∨ token.kind = .symbol .question)}

/-- A row limit with the offset before a comma or behind `OFFSET`. -/
def limit : Language Token :=
  word [.LIMIT] * (rowCount * (1 + mark .comma * rowCount + word [.OFFSET] * rowCount))

/-- A locking read. -/
def locking : Language Token :=
  word [.FOR] * spelled "UPDATE" +
    word [.LOCK] * (spelled "IN" * (spelled "SHARE" * spelled "MODE"))

/-- One of the clauses `LIMIT` and `OFFSET`, which stand in any order. -/
def limitOrOffset : Language Token :=
  word [.LIMIT] * (word [.ALL] + rowCount) +
    word [.OFFSET] * (rowCount * (1 + word [.ROW, .ROWS]))

/-- What a dialect has behind `ORDER BY`. -/
def trailing : TrailingClauses → Language Token
  | .none => 1
  | .limitAndLocking => (1 + limit) * (1 + locking)
  | .limitAndOffset => limitOrOffset∗

/-- All tokens in the language can stand behind the last expression of a query. -/
def AreClosing (language : Language Token) : Prop :=
  ∀ tokens ∈ language, AreLexed tokens → ∀ token ∈ tokens, token.kind.IsClosing

section AreClosing
variable {first second : Language Token}

theorem areClosing_one : AreClosing 1 := by
  rintro _ rfl
  simp

theorem AreClosing.add (left : AreClosing first) (right : AreClosing second) :
    AreClosing (first + second) := fun tokens member =>
  ((Language.mem_add _ _ _).mp member).elim (left tokens) (right tokens)

theorem AreClosing.mul (left : AreClosing first) (right : AreClosing second) :
    AreClosing (first * second) := by
  intro tokens member lexed token inside
  obtain ⟨one, among, two, amongMore, rfl⟩ := Language.mem_mul.mp member
  rcases List.mem_append.mp inside with inside | inside
  · exact left one among lexed.left token inside
  · exact right two amongMore lexed.right token inside

theorem AreClosing.kstar (all : AreClosing first) : AreClosing first∗ := by
  intro tokens member lexed token inside
  obtain ⟨parts, rfl, among⟩ := Language.mem_kstar.mp member
  obtain ⟨part, isPart, inside⟩ := List.mem_flatten.mp inside
  refine all part (among part isPart) (fun other within => ?_) token inside
  exact lexed other (List.mem_flatten.mpr ⟨part, isPart, within⟩)

theorem areClosing_word {among : List Keyword} (others : ∀ word ∈ among, word ∉ Keyword.bodyWords) :
    AreClosing (word among) := by
  rintro _ ⟨token, rfl, word, member, is⟩ _ only inside
  rw [List.mem_singleton.mp inside, is]
  refine ⟨by simp, by simp, by simp, fun starting starts same => ?_⟩
  exact others word member (TokenKind.keyword.inj same ▸ starts)

theorem areClosing_mark {sign : Symbol} (other : sign ∉ [.dot, .leftParen, .rightParen]) :
    AreClosing (mark sign) := by
  simp only [List.mem_cons, List.not_mem_nil, or_false, not_or] at other
  rintro _ ⟨token, rfl, is⟩ _ only inside
  rw [List.mem_singleton.mp inside, is]
  exact ⟨by simp [other], by simp [other], by simp [other], by simp⟩

theorem areClosing_rowCount : AreClosing rowCount := by
  rintro _ ⟨token, rfl, ⟨value, is⟩ | is⟩ _ only inside <;>
  · rw [List.mem_singleton.mp inside, is]
    exact ⟨by simp, by simp, by simp, by simp⟩

/-- A word that begins with a letter is no mark, and its spelling tells it from those that start a query
body. -/
theorem areClosing_spelled {spelling : String}
    (letter : (spelling.toList.head?.map Char.toLower).any Char.isAlpha = true)
    (other : ∀ starting ∈ Keyword.bodyWords,
      Text.sameIgnoringCase starting.spelling spelling = false) : AreClosing (spelled spelling) := by
  rintro _ ⟨token, rfl, is⟩ lexed only inside
  rw [List.mem_singleton.mp inside]
  have isLexed := lexed token List.mem_cons_self
  have noSymbol := (TokenKind.isWritten_iff.mp (isLexed.isWritten_of_word is letter)).1
  have noMark (mark : Symbol) : token.kind ≠ .symbol mark := by
    intro is
    simp [is, TokenKind.isSymbol] at noSymbol
  exact ⟨noMark _, noMark _, noMark _, fun starting starts =>
    isLexed.kind_ne_keyword is (other starting starts)⟩

/-- The clauses at the end of a query are words, numbers and placeholders. -/
theorem areClosing_trailing (clauses : TrailingClauses) : AreClosing (trailing clauses) := by
  have limit : AreClosing limit :=
    (areClosing_word (by decide)).mul (areClosing_rowCount.mul ((areClosing_one.add
      ((areClosing_mark (by decide)).mul areClosing_rowCount)).add
        ((areClosing_word (by decide)).mul areClosing_rowCount)))
  have locking : AreClosing locking :=
    ((areClosing_word (by decide)).mul (areClosing_spelled (by decide) (by decide))).add
      ((areClosing_word (by decide)).mul ((areClosing_spelled (by decide) (by decide)).mul
        ((areClosing_spelled (by decide) (by decide)).mul
          (areClosing_spelled (by decide) (by decide)))))
  have limitOrOffset : AreClosing limitOrOffset :=
    ((areClosing_word (by decide)).mul ((areClosing_word (by decide)).add areClosing_rowCount)).add
      ((areClosing_word (by decide)).mul
        (areClosing_rowCount.mul (areClosing_one.add (areClosing_word (by decide)))))
  cases clauses with
  | none => exact areClosing_one
  | limitAndLocking => exact (areClosing_one.add limit).mul (areClosing_one.add locking)
  | limitAndOffset => exact limitOrOffset.kstar

end AreClosing

end Closing

/-- The end of a query behind `ORDER BY`, with the semicolon. -/
def Dialect.closing (dialect : Dialect) : Language Token :=
  Closing.trailing dialect.trailing * (1 + Closing.mark .semicolon)

theorem Dialect.areClosing_closing (dialect : Dialect) : Closing.AreClosing dialect.closing :=
  (Closing.areClosing_trailing _).mul (Closing.areClosing_one.add (Closing.areClosing_mark (by decide)))

namespace Query

/-- The words behind `SELECT` with the group behind them, where a token of the kind `next` follows.
Behind `DISTINCT ON`, where the dialect accepts it, a parenthesis begins the group. -/
inductive Modifies (dialect : Dialect) : (words group : List Token) → (next : TokenKind) → Prop where
  | absent {next : TokenKind} : Modifies dialect [] [] next
  | all {word : Token} {next : TokenKind} : word.kind = .keyword .ALL → Modifies dialect [word] [] next
  | distinct {word : Token} {next : TokenKind} :
      word.kind = .keyword .DISTINCT ∨ word.kind = .keyword .DISTINCTROW →
        Modifies dialect [word] [] next
  | distinctOn {word on : Token} {group : List Token} {next : TokenKind} :
      word.kind = .keyword .DISTINCT ∨ word.kind = .keyword .DISTINCTROW → dialect.distinctOn = true →
        on.kind = .keyword .ON →
        Token.IsGroup group ∨ (group = [] ∧ next ≠ .symbol .leftParen) →
        Modifies dialect [word, on] group next

section Modifies
variable {dialect : Dialect} {words group : List Token} {next : TokenKind}

theorem Modifies.keyword (modifies : Modifies dialect words group next) :
    ∀ token ∈ words, ∃ word, token.kind = .keyword word := by
  cases modifies with
  | absent => simp
  | all is => simp [is]
  | distinct is => rcases is with is | is <;> simp [is]
  | distinctOn is _ isOn => rcases is with is | is <;> simp [is, isOn]

/-- A group stands only behind `DISTINCT ON`. -/
theorem Modifies.group_cases (modifies : Modifies dialect words group next) :
    group = [] ∨ (dialect.distinctOn = true ∧ Token.IsGroup group ∧
      ∃ word ∈ words.getLast?, word.kind = .keyword .ON) := by
  cases modifies with
  | absent | all _ | distinct _ => exact .inl rfl
  | @distinctOn _ on _ _ _ accepted isOn grouped =>
    rcases grouped with grouped | ⟨none, _⟩
    · exact .inr ⟨accepted, grouped, on, rfl, isOn⟩
    · exact .inl none

end Modifies

/-- The words in front of the query, its clauses behind the tables, and its end stand in their
order. -/
structure Ordered (dialect : Dialect) (query : Query) : Prop where
  opening : ∃ select words, query.opening = select :: words ∧ select.kind = .keyword .SELECT ∧
    Modifies dialect words query.distinctOn (Token.frontKind (query.projection ++ query.behind))
  clauses : query.pieces ∈ Piece.clauses
  closing : query.closing ∈ dialect.closing

end Query

end SelectRouting
