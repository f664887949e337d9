import SelectRouting.Proofs.KeyLists
import SelectRouting.Proofs.QueryAnchors

/-!
# What an expression covers

An expression that is read covers the tokens between the place where its reader starts and the place
where it ends, and nothing else is told of: its shape is the one of these tokens
(`Token.WritesShape`), and its qualifiers stand among them (`ExprStep.expression_covers`).
-/

namespace SelectRouting

/-- The tokens are an expression of the shape: a number or a column, or neither of them, and then the
shape is the bytes that the tokens cover. -/
inductive Token.WritesShape (tokens : List Token) : Expr → Prop where
  | key {shape : Expr} : Token.WritesKey tokens shape → WritesShape tokens shape
  | other : (∀ shape, ¬ Token.WritesKey tokens shape) →
      WritesShape tokens (.other (Token.cover tokens))

namespace Phrase
variable {phrases : List Phrase} {rest : List Token}

theorem allQualifiers_sublist (phrases : List Phrase) :
    (phrases.flatMap qualifiers).Sublist (text phrases) :=
  List.Sublist.flatMap_right _ fun phrase _ => phrase.qualifiers_sublist

/-- Each qualifier of phrases has its point in them. -/
theorem qualifies_of_mem_all {token : Token} (fit : Fit phrases rest)
    (member : token ∈ phrases.flatMap qualifiers) : Token.Qualifies (text phrases) token := by
  obtain ⟨phrase, among, member⟩ := List.mem_flatMap.mp member
  obtain ⟨behind, fits⟩ := Token.Fit.of_mem fit among
  exact (qualifies_of_mem fits member).of_inside (Token.infix_flatMap among)

end Phrase

/-- From `before` up to `after` the tokens are an expression of the shape, and its qualifiers are those
of the tokens that have a point behind them, in the order of the text. -/
structure ExprState.Covers (before : ExprState) (tokens owners : List Token) (expr : Expr)
    (after : ExprState) : Prop where
  rest : before.cursor.rest = tokens ++ after.cursor.rest
  some : tokens ≠ []
  balanced : Token.Balanced tokens
  shape : Token.WritesShape tokens expr
  qualifiers : after.qualifiers = before.qualifiers ++ owners.map Name.ofToken
  ordered : owners.Pairwise fun first second => first.start < second.start
  qualifies : ∀ owner ∈ owners, Token.Qualifies tokens owner

namespace ExprStep
open Step Cursor ExprState

variable {before after : ExprState} {expr : Expr} {power : Nat} {phrases : List Phrase}

/-- What is answered for an expression is the shape of its tokens. -/
theorem writesShape_of_reads (reads : ReadsAs power before phrases expr after)
    (answers : Yields (expressionOf power) before expr after) :
    Token.WritesShape (Phrase.text phrases) expr := by
  by_cases key : ∃ shape, Token.WritesKey (Phrase.text phrases) shape
  · obtain ⟨shape, writes⟩ := key
    have stands : after.cursor.rest = [] ++ after.cursor.rest := rfl
    obtain ⟨rfl, _⟩ := expression_of_key answers reads.moves stands writes .absent rfl
    exact .key writes
  · rw [not_exists] at key
    rcases writesKey_of_shapes reads.shapes reads.fit with ⟨span, rfl⟩ | writes
    · cases reads.shapes with
      | other _ _ _ covered => exact covered ▸ .other key
    · exact absurd writes (key expr)

/-- An expression, or one up to a comparison, covers some tokens, among which the parentheses are
balanced with no comma outside of them. Its shape is theirs, and its qualifiers are tokens among them
with a point behind each, in the order of the text. -/
theorem expression_covers {reader : ExprStep Expr} (entry : reader = expression ∨ reader = comparand)
    (stands : before.cursor.rest <:+ Token.list before.cursor.text)
    (answers : Yields reader before expr after) :
    ∃ tokens owners, Covers before tokens owners expr after := by
  obtain ⟨power, rfl⟩ : ∃ power, reader = expressionOf power := by
    rcases entry with rfl | rfl
    · exact ⟨0, rfl⟩
    · exact ⟨Expr.comparisonPower + 1, rfl⟩
  obtain ⟨phrases, reads⟩ := reads_expressionOf answers
  have tokens := reads.moves.rest
  have within : Phrase.text phrases <:+: Token.list before.cursor.text := by
    refine List.IsInfix.trans ?_ stands.isInfix
    rw [tokens]
    exact (List.prefix_append _ _).isInfix
  have lexed : Token.AreLexed (Phrase.text phrases) := fun token member =>
    Token.areLexed_list _ token (within.subset member)
  have ordered := (Token.pairwise_start_lt before.cursor.text).sublist
    ((Phrase.allQualifiers_sublist phrases).trans within.sublist)
  exact ⟨Phrase.text phrases, phrases.flatMap Phrase.qualifiers, tokens,
    Phrase.text_ne_nil reads.shapes.ne_nil, reads.balanced lexed,
    writesShape_of_reads reads answers, reads.qualifiers, ordered,
    fun owner member => Phrase.qualifies_of_mem_all reads.fit member⟩

/-- A conditional has two names before points in a call and one outside of it; the comma behind it is
left. -/
theorem expression_covers_of_conditional :
    let text := "CASE t.a WHEN COALESCE(u.b.c, ?) THEN 1 END, x"
    let before : ExprState := { cursor := { text, rest := Token.list text } }
    ∃ after tokens owners, Yields expression before (.other ⟨0, 43⟩) after ∧
      Covers before tokens owners (.other ⟨0, 43⟩) after ∧ after.cursor.kind = .symbol .comma ∧
      after.qualifiers.map Name.start = [5, 23, 25] := by
  intro text before
  let after := (expression before).2
  have outcome : (expression before).1 = .ok (.other ⟨0, 43⟩) ∧
      after.cursor.kind = .symbol .comma ∧ after.qualifiers.map Name.start = [5, 23, 25] := by
    decide +kernel
  obtain ⟨answered, comma, starts⟩ := outcome
  have answers : Yields expression before (.other ⟨0, 43⟩) after := Prod.ext answered rfl
  obtain ⟨tokens, owners, covers⟩ := expression_covers (.inl rfl) (List.suffix_refl _) answers
  exact ⟨after, tokens, owners, answers, covers, comma, starts⟩

end ExprStep

end SelectRouting
