import SelectRouting.Proofs.Introducers

/-!
# Where a set operation passes

A text that is accepted is one query: outside of parentheses a keyword that starts a second query
body stands in it only where a name is read, whatever word it is
(`Statement.setOperation_named`). The rule is a property of lists of tokens (`Token.NamesOperations`)
that the parts of a query have by themselves and that holds of them put together.
-/

namespace SelectRouting

open Token (AreLexed IsGroup frontKind)

/-- A name is read directly behind a token of this kind, whatever word stands there. -/
def TokenKind.introducesName : TokenKind → Bool
  | .keyword .AS | .symbol .dot | .symbol .colon | .symbol .atSign | .symbol .doubleColon => true
  | _ => false

/-- The kind is a keyword that starts a second query body. -/
def TokenKind.isSetOperation : TokenKind → Bool
  | .keyword word => word.isSetOperation
  | _ => false

theorem TokenKind.isSetOperation_iff {kind : TokenKind} : kind.isSetOperation = true ↔
    ∃ word : Keyword, kind = .keyword word ∧ word.isSetOperation = true := by
  cases kind <;> simp [isSetOperation]

theorem Keyword.mem_bodyWords {word : Keyword} (sets : word.isSetOperation = true) :
    word ∈ bodyWords := by
  revert sets
  cases word <;> decide

/-- A set operation ends an item of the projection list. -/
theorem Keyword.mem_closingKeywords {word : Keyword} (sets : word.isSetOperation = true) :
    word ∈ AnalysisStep.closingKeywords := by
  revert sets
  cases word <;> decide

namespace Token
variable {before behind tokens first second : List Token} {token : Token} {depth : Nat}

/-- The token between the two lists stands in parentheses: a group that begins in the first list
ends in the second. -/
def IsEnclosed (before : List Token) (token : Token) (behind : List Token) : Prop :=
  ∃ front opening closing back, before = front ++ opening ∧ behind = closing ++ back ∧
    IsGroup (opening ++ token :: closing)

/-- Behind a part of a group more parentheses are open than before the group. -/
theorem Closing.exists_open (closing : Closing depth (first ++ token :: second)) (outer : Nat)
    (inside : first = [] → 0 < depth) :
    ∃ deeper, depthBehind? (depth + outer) first = some (deeper + 1) := by
  induction first generalizing depth with
  | nil =>
    obtain ⟨deeper, rfl⟩ := Nat.exists_eq_add_one.mpr (inside rfl)
    exact ⟨deeper + outer, by rw [depthBehind?_nil, Nat.add_right_comm]⟩
  | cons next first ih =>
    have some : first ++ token :: second ≠ [] := by simp
    rw [List.cons_append] at closing
    generalize whole : first ++ token :: second = rest at closing some
    cases closing with
    | last => exact absurd rfl some
    | opens opening rest =>
      rw [depthBehind?_cons (deepen?_of_opening opening), Nat.add_right_comm]
      exact ih (whole ▸ rest) fun _ => Nat.succ_pos _
    | @closes depth _ _ closing rest =>
      rw [Nat.add_right_comm, depthBehind?_cons (deepen?_of_closing closing), Nat.add_right_comm]
      exact ih (whole ▸ rest) fun _ => Nat.succ_pos _
    | other noOpening noClosing rest =>
      rw [depthBehind?_cons (deepen?_of_other noOpening noClosing)]
      exact ih (whole ▸ rest) fun _ => Nat.succ_pos _

/-- Where no parenthesis is open a token stands in none. -/
theorem not_isEnclosed (closed : depthBehind? 0 before = some 0)
    (noOpening : token.kind ≠ .symbol .leftParen) : ¬ IsEnclosed before token behind := by
  rintro ⟨front, opening, closing, back, rfl, -, group⟩
  rw [depthBehind?, List.foldlM_append, Option.bind_eq_bind, Option.bind_eq_some_iff] at closed
  obtain ⟨outer, -, closed⟩ := closed
  have some : opening ≠ [] := by
    rintro rfl
    exact noOpening group.frontKind
  obtain ⟨deeper, opened⟩ := Closing.exists_open group outer fun none => absurd none some
  rw [Nat.zero_add, depthBehind?, closed] at opened
  cases opened

/-- Behind open parentheses stand the tokens that close them, and then balanced ones. -/
theorem Level.exists_closing (level : Level (depth + 1) tokens) :
    ∃ closing back, tokens = closing ++ back ∧ Closing (depth + 1) closing ∧ Balanced back := by
  generalize opened : depth + 1 = deep at level
  induction level generalizing depth with
  | nil => cases opened
  | @opens _ token _ opening _ ih =>
    subst opened
    obtain ⟨closing, back, rfl, closes, balanced⟩ := ih rfl
    exact ⟨token :: closing, back, rfl, .opens opening closes, balanced⟩
  | @closes outer token tokens isClosing level ih =>
    cases outer with
    | zero => exact ⟨[token], tokens, rfl, .last isClosing, level⟩
    | succ outer =>
      obtain ⟨closing, back, rfl, closes, balanced⟩ := ih rfl
      exact ⟨token :: closing, back, rfl, .closes isClosing closes, balanced⟩
  | @other _ token _ noOpening noClosing _ _ ih =>
    subst opened
    obtain ⟨closing, back, rfl, closes, balanced⟩ := ih rfl
    exact ⟨token :: closing, back, rfl, .other noOpening noClosing closes, balanced⟩

/-- A keyword among the tokens that starts a second query body stands in parentheses, or directly
behind a token that introduces a name. -/
def NamesOperations (tokens : List Token) : Prop :=
  ∀ before token behind, tokens = before ++ token :: behind → token.kind.isSetOperation = true →
    IsEnclosed before token behind ∨
      ∃ previous ∈ before.getLast?, previous.kind.introducesName = true

/-- Tokens among which no such keyword stands. -/
theorem NamesOperations.of_other (others : ∀ token ∈ tokens, token.kind.isSetOperation = false) :
    NamesOperations tokens := by
  rintro before token behind rfl sets
  rw [others token (by simp)] at sets
  cases sets

theorem NamesOperations.nil : NamesOperations [] :=
  .of_other (by simp)

theorem NamesOperations.single (other : token.kind.isSetOperation = false) :
    NamesOperations [token] :=
  .of_other (by simpa using other)

theorem NamesOperations.append (left : NamesOperations first) (right : NamesOperations second) :
    NamesOperations (first ++ second) := by
  intro before token behind same sets
  have later {more : List Token} (is : second = more ++ token :: behind)
      (front : before = first ++ more) :
      IsEnclosed before token behind ∨
        ∃ previous ∈ before.getLast?, previous.kind.introducesName = true := by
    subst front
    rcases right more token behind is sets with enclosed | ⟨previous, last, introduces⟩
    · obtain ⟨front, opening, closing, back, rfl, rest⟩ := enclosed
      exact .inl ⟨first ++ front, opening, closing, back, (List.append_assoc ..).symm, rest⟩
    · exact .inr ⟨previous, List.mem_getLast?_append_of_mem_getLast? last, introduces⟩
  rcases List.append_eq_append_iff.mp same with ⟨more, front, is⟩ | ⟨more, front, is⟩
  · exact later is front
  · cases more with
    | nil => exact @later [] is.symm (by simpa using front.symm)
    | cons other more =>
      obtain ⟨rfl, rfl⟩ := List.cons.inj is
      refine (left before token more front sets).imp_left ?_
      rintro ⟨start, opening, closing, back, rfl, rfl, group⟩
      exact ⟨start, opening, closing, back ++ second, rfl, List.append_assoc .., group⟩

theorem NamesOperations.flatMap {α : Type} {tokensOf : α → List Token} {parts : List α}
    (each : ∀ part ∈ parts, NamesOperations (tokensOf part)) :
    NamesOperations (parts.flatMap tokensOf) := by
  induction parts with
  | nil => exact .nil
  | cons part parts ih =>
    obtain ⟨first, others⟩ := List.forall_mem_cons.mp each
    exact first.append (ih others)

/-- Any token may stand behind one that introduces a name. -/
theorem NamesOperations.named (front : NamesOperations first)
    (last : ∃ previous ∈ first.getLast?, previous.kind.introducesName = true) (token : Token) :
    NamesOperations (first ++ [token]) := by
  intro before other behind same sets
  rcases List.eq_nil_or_concat behind with rfl | ⟨more, final, rfl⟩
  · obtain ⟨rfl, -⟩ := List.append_inj' same rfl
    exact .inr last
  · rw [List.concat_eq_append, ← List.cons_append, ← List.append_assoc] at same
    obtain ⟨is, -⟩ := List.append_inj' same rfl
    refine (front before other more is sets).imp_left ?_
    rintro ⟨start, opening, closing, back, rfl, rfl, group⟩
    exact ⟨start, opening, closing, back ++ [final], rfl, by simp, group⟩

/-- In a group every token is enclosed. -/
theorem NamesOperations.of_group (group : IsGroup tokens) : NamesOperations tokens := by
  rintro before token behind rfl _
  exact .inl ⟨[], before, behind, [], rfl, (List.append_nil _).symm, group⟩

/-- Balanced tokens in which no such keyword stands outside of parentheses. -/
theorem NamesOperations.of_balanced (balanced : Balanced tokens)
    (others : ∀ token ∈ outside 0 tokens, token.kind.isSetOperation = false) :
    NamesOperations tokens := by
  -- A group is longer than its first token, so the induction is on the length.
  induction size : tokens.length using Nat.strong_induction_on generalizing tokens with
  | _ size ih =>
    cases balanced with
    | nil => exact .nil
    | @opens _ token tokens opening level =>
      obtain ⟨closing, back, rfl, closes, balanced⟩ := level.exists_closing
      have group : IsGroup (token :: closing) := .opens opening closes
      have rest := ih back.length (by simp at size; omega) balanced (fun other stands =>
        others other ((mem_outside_append group.isNested).mpr (.inr stands))) rfl
      exact (of_group group).append rest
    | @other _ token tokens noOpening noClosing _ balanced =>
      have deepened : deepen? 0 token = some 0 := deepen?_of_other noOpening noClosing
      have rest := ih tokens.length (by simp at size; omega) balanced (fun other stands =>
        others other ((mem_outside_cons deepened).mpr (.inr stands))) rfl
      have first := others token ((mem_outside_cons deepened).mpr (.inl ⟨rfl, rfl⟩))
      exact (single first).append rest

/-- Keywords of which none starts a second query body. -/
theorem NamesOperations.of_keyword (allowed : List Keyword)
    (are : ∀ token ∈ tokens, ∃ word ∈ allowed, token.kind = .keyword word)
    (others : ∀ word ∈ allowed, word.isSetOperation = false) : NamesOperations tokens := by
  refine .of_other fun token inside => ?_
  obtain ⟨word, among, is⟩ := are token inside
  simpa [is, TokenKind.isSetOperation] using others word among

end Token

namespace Phrase
variable {phrase : Phrase} {phrases : List Phrase} {rest : List Token}

/-- A keyword that starts a second query body neither stands in an expression by itself nor begins
a column or a call. -/
theorem startsNothing {kind : TokenKind} (sets : kind.isSetOperation = true) :
    Expr.isSyntax kind = false ∧ Expr.startsColumn kind = false ∧ Expr.startsCall kind = false := by
  obtain ⟨word, rfl, sets⟩ := TokenKind.isSetOperation_iff.mp sets
  revert sets
  cases word <;> decide

theorem namesOperations_dotted {owners : List (Token × Token)} (dotted : Dotted owners)
    {last : Token} (starts : Expr.startsColumn (frontKind (joined owners ++ [last])) = true) :
    Token.NamesOperations (joined owners ++ [last]) := by
  induction owners using List.reverseRecOn generalizing last with
  | nil =>
    refine .single (Bool.eq_false_iff.mpr fun sets => ?_)
    rw [show frontKind (joined [] ++ [last]) = last.kind from rfl, (startsNothing sets).2.1] at starts
    cases starts
  | append_singleton owners part ih =>
    obtain ⟨owner, point⟩ := part
    have isPoint : point.kind = .symbol .dot := (dotted (owner, point) (by simp)).2
    have split : joined (owners ++ [(owner, point)]) = (joined owners ++ [owner]) ++ [point] := by
      simp [joined]
    rw [split] at starts ⊢
    rw [List.append_assoc, Token.frontKind_append (by simp)] at starts
    have front := ih (fun part member => dotted part (List.mem_append_left _ member)) starts
    refine (front.append (.single ?_)).named ⟨point, by simp, ?_⟩ last <;>
      simp [isPoint, TokenKind.isSetOperation, TokenKind.introducesName]

theorem Fits.namesOperations (fits : phrase.Fits rest) (lexed : AreLexed phrase.tokens) :
    Token.NamesOperations phrase.tokens := by
  cases phrase with
  | mark token =>
    refine .single (Bool.eq_false_iff.mpr fun sets => ?_)
    have stands : Expr.isSyntax token.kind = true := fits
    rw [(startsNothing sets).1] at stands
    cases stands
  | word token =>
    refine .single (Bool.eq_false_iff.mpr fun sets => ?_)
    obtain ⟨word, is, sets⟩ := TokenKind.isSetOperation_iff.mp sets
    refine (lexed token (by simp [tokens])).kind_ne_keyword fits ?_ is
    revert sets
    cases word <;> decide
  | «variable» marks written =>
    obtain ⟨some, signs, _⟩ := fits
    have front : Token.NamesOperations marks := .of_other fun sign inside => by
      rcases signs sign inside with is | is <;> simp [is, TokenKind.isSetOperation]
    refine front.named ⟨marks.getLast some, List.getLast?_eq_some_getLast some, ?_⟩ written
    rcases signs _ (List.getLast_mem some) with is | is <;> simp [is, TokenKind.introducesName]
  | name owners last => exact namesOperations_dotted fits.1 fits.2.2.1
  | columns owners star => exact namesOperations_dotted fits.2.1 fits.2.2.1
  | call function arguments =>
    obtain ⟨starts, grouped⟩ := fits
    have word : function.kind.isSetOperation = false := by
      refine Bool.eq_false_iff.mpr fun sets => ?_
      rw [(startsNothing sets).2.2] at starts
      cases starts
    exact (Token.NamesOperations.single word).append (.of_group grouped)
  | cast sign type arguments =>
    obtain ⟨isSign, _, grouped⟩ := fits
    have front : Token.NamesOperations [sign] :=
      .single (by simp [isSign, TokenKind.isSetOperation])
    have named : Token.NamesOperations [sign, type] :=
      front.named ⟨sign, rfl, by simp [isSign, TokenKind.introducesName]⟩ type
    refine named.append ?_
    rcases grouped with ⟨rfl, _⟩ | grouped
    · exact .nil
    · exact .of_group grouped

theorem namesOperations_text (fit : Fit phrases rest) (lexed : AreLexed (text phrases)) :
    Token.NamesOperations (text phrases) := by
  refine .flatMap fun phrase inside => ?_
  obtain ⟨_, fits⟩ := Token.Fit.of_mem fit inside
  exact fits.namesOperations (lexed.of_mem_flatMap inside)

end Phrase

theorem Scan.AliasTokens.namesOperations {named : List Token} {next : TokenKind}
    {given : Option String} (are : AliasTokens named given next) : Token.NamesOperations named := by
  cases are with
  | absent => exact .nil
  | dangling isWord => exact .single (by simp [isWord]; rfl)
  | @introduced word token _ isWord _ =>
    have front : Token.NamesOperations [word] := .single (by simp [isWord]; rfl)
    exact front.named ⟨word, rfl, by simp [isWord, TokenKind.introducesName]⟩ token
  | bare reads =>
    refine .single (Bool.eq_false_iff.mpr fun sets => ?_)
    obtain ⟨word, is, _⟩ := TokenKind.isSetOperation_iff.mp sets
    simp [is, TokenKind.readsAsAlias] at reads

namespace Projected
variable {item : Projected} {rest : List Token}

theorem Fits.namesOperations (fits : item.Fits rest) (guarded : item.Guarded)
    (lexed : AreLexed item.tokens)
    (commas : ∀ token ∈ item.comma, token.kind = .symbol .comma) :
    Token.NamesOperations item.tokens := by
  have comma : Token.NamesOperations item.comma := .of_other fun token inside => by
    simp [commas token inside, TokenKind.isSetOperation]
  have call : Token.NamesOperations item.call := by
    rcases fits.call with none | ⟨⟨star, is, stands⟩, _⟩ | ⟨function, group, word, is, isWord, aggregate, grouped⟩
    · rw [none]
      exact .nil
    · rw [is]
      refine .single (Bool.eq_false_iff.mpr fun sets => ?_)
      obtain ⟨word, isWord, _⟩ := TokenKind.isSetOperation_iff.mp sets
      rcases stands with symbol | quoted
      · simp [isWord] at symbol
      · exact (lexed.left.left.right star (by simp [is])).ne_star_of_keyword isWord quoted
    · have front : Token.NamesOperations [function] := by
        refine .single ?_
        rw [isWord]
        cases word <;> first | rfl | cases aggregate
      rw [is]
      exact front.append (.of_group grouped)
  have text : Token.NamesOperations item.text := by
    refine .of_balanced fits.text fun token stands => Bool.eq_false_iff.mpr fun sets => ?_
    obtain ⟨word, is, sets⟩ := TokenKind.isSetOperation_iff.mp sets
    exact guarded.words token stands word (Keyword.mem_closingKeywords sets) is
  have named : Token.NamesOperations item.named := by
    rcases fits.named with none | named
    · rw [none]
      exact .nil
    · exact named.namesOperations
  exact ((comma.append call).append text).append named

end Projected

theorem Equation.Fits.namesOperations {equation : Equation} {rest : List Token}
    (fits : equation.Fits rest) (lexed : AreLexed equation.tokens) :
    Token.NamesOperations equation.tokens := by
  have word : Token.NamesOperations [equation.word] := by
    refine .of_keyword [.ON, .AND] ?_ (by decide)
    simpa using fits.word
  have sign : Token.NamesOperations [equation.sign] := .single (by rw [fits.sign]; rfl)
  have split : equation.tokens = ([equation.word] ++ Phrase.text equation.left) ++
      ([equation.sign] ++ Phrase.text equation.right) := rfl
  rw [split] at lexed ⊢
  have left := Phrase.namesOperations_text fits.left.fit lexed.left.right
  have right := Phrase.namesOperations_text fits.right.fit lexed.right.right
  exact (word.append left).append (sign.append right)

namespace Source
variable {source : Source} {rest : List Token}

/-- Behind the point of a schema any word names a table. -/
theorem IsNamed.namesOperations (named : source.IsNamed) :
    Token.NamesOperations (source.schema ++ source.name) := by
  have noWord {token : Token} (identifier : token.kind.isIdentifier = true) :
      Token.NamesOperations [token] := by
    refine .single (Bool.eq_false_iff.mpr fun sets => ?_)
    obtain ⟨word, is, _⟩ := TokenKind.isSetOperation_iff.mp sets
    simp [is, TokenKind.isIdentifier] at identifier
  rcases named with ⟨none, name, is, identifier⟩ | ⟨schema, point, are, identifier, isPoint, short⟩
  · rw [none, is]
    exact noWord identifier
  · have point_other : Token.NamesOperations [point] := .single (by rw [isPoint]; rfl)
    have front : Token.NamesOperations [schema, point] := (noWord identifier).append point_other
    rw [are]
    generalize source.name = names at short ⊢
    cases names with
    | nil => exact front
    | cons name behind =>
      obtain rfl : behind = [] := List.length_eq_zero_iff.mp (by simpa using short)
      exact front.named ⟨point, rfl, by rw [isPoint]; rfl⟩ name

theorem Fits.namesOperations (fits : source.Fits rest) (lexed : AreLexed source.tokens) :
    Token.NamesOperations source.tokens := by
  have introducer : Token.NamesOperations source.introducer := .of_other fun token inside =>
    fits.kind_introducer (P := fun kind => kind.isSetOperation = false) (by decide) inside
  have equations : Token.NamesOperations (source.equations.flatMap Equation.tokens) := by
    refine .flatMap fun equation inside => ?_
    obtain ⟨_, equationFits⟩ := Token.Fit.of_mem fits.equations inside
    exact equationFits.namesOperations (lexed.right.left.of_mem_flatMap inside)
  have columns : Token.NamesOperations source.columns := by
    rcases fits.columns with none | ⟨word, group, are, is, _, grouped⟩
    · rw [none]
      exact .nil
    · have isWord : Token.NamesOperations [word] := .single (by rw [is]; rfl)
      rw [are]
      refine isWord.append ?_
      rcases grouped with rfl | grouped
      · exact .nil
      · exact .of_group grouped
  have split : source.tokens = source.introducer ++ (source.schema ++ source.name) ++ source.named ++
      (source.equations.flatMap Equation.tokens ++ source.columns) := by
    simp [tokens, condition]
  rw [split]
  exact ((introducer.append fits.name.namesOperations).append fits.named.namesOperations).append
    (equations.append columns)

end Source

theorem Piece.Fits.namesOperations {piece : Piece} {rest : List Token} (fits : piece.Fits rest)
    (lexed : AreLexed piece.tokens) : Token.NamesOperations piece.tokens := by
  cases piece with
  | words tokens =>
    refine .of_other fun token inside => ?_
    rcases fits token inside with is | ⟨word, among, is⟩
    · rw [is]
      rfl
    · rw [is]
      revert among
      cases word <;> decide
  | expression phrases => exact Phrase.namesOperations_text fits.2.1 lexed

namespace Query
variable {query : Query} {dialect : Dialect}

/-- The words in front of a query start no second one. -/
theorem Ordered.namesOperations (ordered : query.Ordered dialect) :
    Token.NamesOperations query.opening := by
  obtain ⟨select, words, are, isSelect, modifies⟩ := ordered.opening
  have front : Token.NamesOperations [select] := .single (by rw [isSelect]; rfl)
  rw [are]
  refine front.append (.of_keyword [.ALL, .DISTINCT, .DISTINCTROW, .ON] ?_ (by decide))
  generalize query.distinctOn = group at modifies
  cases modifies with
  | absent => simp
  | all is => simp [is]
  | distinct is => rcases is with is | is <;> simp [is]
  | distinctOn is _ isOn => rcases is with is | is <;> simp [is, isOn]

theorem Describes.namesOperations {text : String} {statement : Statement}
    (describes : query.Describes dialect text statement) :
    Token.NamesOperations (Token.list text) := by
  have fits := describes.fits
  have guarded := describes.guarded
  have lexed := Token.areLexed_list text
  rw [describes.tokens] at lexed ⊢
  have distinctOn : Token.NamesOperations query.distinctOn := by
    rcases fits.distinctOn with none | ⟨_, grouped, _⟩
    · rw [none]
      exact .nil
    · exact .of_group grouped
  have projection : Token.NamesOperations query.projection := by
    refine .flatMap fun item inside => ?_
    obtain ⟨_, itemFits⟩ := Token.Fit.of_mem fits.items inside
    exact itemFits.namesOperations (guarded.items item inside)
      (lexed.left.right.of_mem_flatMap inside) (fits.comma item inside)
  have sources : Token.NamesOperations (query.sources.flatMap Source.tokens) := by
    refine .flatMap fun source inside => ?_
    obtain ⟨_, sourceFits⟩ := Token.Fit.of_mem fits.sources inside
    exact sourceFits.namesOperations (lexed.right.left.left.of_mem_flatMap inside)
  have pieces : Token.NamesOperations (query.pieces.flatMap Piece.tokens) := by
    refine .flatMap fun piece inside => ?_
    obtain ⟨_, pieceFits⟩ := Token.Fit.of_mem fits.pieces inside
    exact pieceFits.namesOperations (lexed.right.left.right.of_mem_flatMap inside)
  have closing : Token.NamesOperations query.closing := .of_other fun token inside => by
    refine Bool.eq_false_iff.mpr fun sets => ?_
    obtain ⟨word, is, sets⟩ := TokenKind.isSetOperation_iff.mp sets
    exact (guarded.closing token inside).noBody word (Keyword.mem_bodyWords sets) is
  exact ((describes.ordered.namesOperations.append distinctOn).append projection).append
    ((sources.append pieces).append closing)

end Query

namespace Statement

/-- **No second query passes.** Where a keyword that starts a second query body stands in an accepted
text outside of all parentheses, it stands directly behind `AS`, a point, a colon, an `@` or a double
colon: it is read as a name. -/
theorem setOperation_named {dialect : Dialect} (shipped : dialect ∈ Dialect.shipped) {text : String}
    {statement : Statement} (accepted : ofText dialect text = .ok statement)
    {before behind : List Token} {token : Token} (split : Token.list text = before ++ token :: behind)
    (sets : token.kind.isSetOperation = true) (outside : ¬ Token.IsEnclosed before token behind) :
    ∃ previous ∈ before.getLast?, previous.kind.introducesName = true := by
  obtain ⟨query, describes⟩ := exists_query (Dialect.isPlain_of_shipped shipped) accepted
  exact (describes.namesOperations before token behind split sets).resolve_left outside

/-- Behind the point of its table such a keyword is the column of a key; the one before it stands in
the parentheses of a call. -/
theorem setOperation_named_of_column :
    let text := "SELECT COUNT(a UNION b) FROM t ORDER BY t.minus"
    let before := (Token.list text).take 13
    let token : Token := ⟨.keyword .MINUS, 42, "minus"⟩
    ∃ statement, ofText .generic text = .ok statement ∧ Token.list text = before ++ [token] ∧
      ¬ Token.IsEnclosed before token [] ∧
        ∃ previous ∈ before.getLast?, previous.kind.introducesName = true := by
  intro text before token
  have shipped : Dialect.generic ∈ Dialect.shipped := by simp [Dialect.shipped]
  have accepted : ofText .generic text = .ok
      { items := [.aggregation { function := .count, argument := "(a UNION b)", aliasName := none,
                                 position := 1 }]
        tables := [⟨"t", none⟩]
        orderBy := [.column ⟨some "t", "minus", .ascending, some "ORDER_BY_DERIVED_0"⟩]
        projectionEnd := 24
        edits := [.tableName 29 "t", .tableName 40 "t",
          .projection 24 ["t.minus AS ORDER_BY_DERIVED_0"]] } := by
    decide +kernel
  have split : Token.list text = before ++ [token] := by decide +kernel
  have closed : Token.depthBehind? 0 before = some 0 := by decide +kernel
  have outside : ¬ Token.IsEnclosed before token [] := Token.not_isEnclosed closed (by simp [token])
  exact ⟨_, accepted, split, outside,
    setOperation_named shipped accepted split (by simp [token]; rfl) outside⟩

end Statement

end SelectRouting
