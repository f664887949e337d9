import SelectRouting.Proofs.QueryFronts

/-!
# The names before points in a query

Every name with a point behind it is a token that may be replaced, or is passed without being looked
at, or is the schema of a table (`Query.mem_owners`). It is shown for each part of a query by
itself: no part begins with a point behind a name.
-/

namespace SelectRouting

open Token (AreLexed frontKind)

namespace Phrase
variable {phrase : Phrase} {phrases : List Phrase} {rest : List Token} {token : Token}

theorem ownerBefore_of_isSymbol {sign : Token} {mark : Symbol} (is : sign.kind = .symbol mark)
    (rest : List Token) : Token.ownerBefore rest sign = [] := by
  simp [Token.ownerBefore, is, TokenKind.isIdentifier]

/-- The names before points in a dotted name are its parts before the last. -/
theorem mem_owners_joined {owners : List (Token × Token)} {last : Token} (dotted : Dotted owners)
    (member : token ∈ Token.owners (joined owners ++ [last])) : token ∈ owners.map Prod.fst := by
  induction owners with
  | nil => simp [joined, Token.owners, Token.ownerBefore] at member
  | cons part owners ih =>
    obtain ⟨owner, point⟩ := part
    have is := (dotted _ List.mem_cons_self).2
    have inner := ih fun part member => dotted part (List.mem_cons_of_mem _ member)
    change token ∈ Token.owners (owner :: point :: (joined owners ++ [last])) at member
    rw [Token.owners, Token.owners, ownerBefore_of_isSymbol is, List.nil_append] at member
    rcases List.mem_append.mp member with first | member
    · rw [List.mem_singleton.mp ((Token.ownerBefore_sublist _ _).subset first)]
      exact List.mem_cons_self
    · exact List.mem_cons_of_mem _ (inner member)

/-- The parts before the last of a name are its outer owners and the one that qualifies. -/
theorem mem_owner_cases {owners : List (Token × Token)} (member : token ∈ owners.map Prod.fst) :
    token ∈ (owners.getLast?.map Prod.fst).toList ∨ token ∈ owners.dropLast.map Prod.fst := by
  rcases List.eq_nil_or_concat owners with rfl | ⟨outer, last, rfl⟩
  · simp at member
  · simpa [or_comm] using member

/-- The names before points in a phrase are met or passed. -/
theorem mem_owners_tokens (fits : phrase.Fits rest)
    (member : token ∈ Token.owners phrase.tokens) :
    token ∈ phrase.qualifiers ∨ token ∈ phrase.unread := by
  cases phrase with
  | mark other => simp [tokens, Token.owners, Token.ownerBefore] at member
  | word other => simp [tokens, Token.owners, Token.ownerBefore] at member
  | «variable» marks written =>
    exfalso
    rw [Token.owners_eq_nil] at member
    · cases member
    · intro sign inside
      rcases List.mem_append.mp inside with inside | inside
      · rcases fits.2.1 sign inside with is | is <;> simp [is]
      · rw [List.mem_singleton.mp inside]
        intro point
        have noSymbol := fits.2.2
        simp [point, TokenKind.isWritten, TokenKind.isSymbol] at noSymbol
  | name owners last => exact mem_owner_cases (mem_owners_joined fits.1 member)
  | columns owners star => exact mem_owner_cases (mem_owners_joined fits.2.1 member)
  | call function arguments =>
    have front : frontKind arguments ≠ .symbol .dot := by
      cases fits.2 with
      | opens opening _ => simp [opening]
    rw [tokens, Token.owners, Token.ownerBefore_of_front front, List.nil_append] at member
    exact .inl member
  | cast sign type arguments =>
    have front : frontKind arguments ≠ .symbol .dot := by
      rcases fits.2.2 with ⟨rfl, _⟩ | group
      · simp
      · cases group with
        | opens opening _ => simp [opening]
    right
    rw [tokens, Token.owners, Token.owners, ownerBefore_of_isSymbol fits.1,
      Token.ownerBefore_of_front front, List.nil_append, List.nil_append] at member
    exact (Token.owners_sublist arguments).subset member

/-- The names before points in an expression are met or passed. -/
theorem mem_owners_text (fit : Fit phrases rest) (lexed : AreLexed (text phrases))
    (member : token ∈ Token.owners (text phrases)) :
    token ∈ phrases.flatMap qualifiers ∨ token ∈ phrases.flatMap unread := by
  have noPoint : ∀ phrase ∈ phrases, frontKind phrase.tokens ≠ .symbol .dot := by
    intro phrase inside
    obtain ⟨behind, fits⟩ := Token.Fit.of_mem fit inside
    exact frontKind_tokens_ne (.inl rfl) fits (lexed.of_mem_flatMap inside)
  rw [text, Token.owners_flatMap noPoint] at member
  obtain ⟨phrase, inside, member⟩ := List.mem_flatMap.mp member
  obtain ⟨behind, fits⟩ := Token.Fit.of_mem fit inside
  rcases mem_owners_tokens fits member with met | passed
  · exact .inl (List.mem_flatMap.mpr ⟨phrase, inside, met⟩)
  · exact .inr (List.mem_flatMap.mpr ⟨phrase, inside, passed⟩)

end Phrase

namespace Projected
variable {item : Projected} {rest : List Token} {token : Token}

/-- The names before points in an item stand in its text or in a call that begins it. -/
theorem mem_owners_tokens (fits : item.Fits rest)
    (comma : ∀ token ∈ item.comma, token.kind = .symbol .comma)
    (member : token ∈ Token.owners item.tokens) :
    token ∈ Token.owners item.text ∨ token ∈ item.call := by
  have named : ∀ token ∈ item.named, token.kind ≠ .symbol .dot := by
    rcases fits.named with none | named
    · simp [none]
    · exact named.kind_ne .dot
  have front : frontKind item.named ≠ .symbol .dot := by
    rw [← List.append_nil item.named]
    exact Token.frontKind_ne named (by simp)
  rw [tokens, List.append_assoc, List.append_assoc] at member
  have commas : Token.Splits item.comma (item.call ++ (item.text ++ item.named)) :=
    Token.splits_of_no_name (fun token inside => by
      simp [comma token inside, TokenKind.isIdentifier]) _
  rcases commas.mem_owners member with member | member
  · exact absurd member (Token.not_mem_owners fun token inside => by simp [comma token inside])
  have calls : Token.Splits item.call (item.text ++ item.named) := by
    rcases fits.call with none | ⟨_, none⟩ | ⟨function, group, word, is, _, _, grouped⟩
    · rw [none]
      exact Token.splits_of_no_name (by simp) _
    · rw [none]
      exact .inl front
    · rw [is]
      exact grouped.splits_cons function _
  rcases calls.mem_owners member with member | member
  · exact .inr ((Token.owners_sublist _).subset member)
  have texts : Token.Splits item.text item.named := .inl front
  rcases texts.mem_owners member with member | member
  · exact .inl member
  · exact absurd member (Token.not_mem_owners named)

end Projected

namespace Equation
variable {equation : Equation} {phrases : List Phrase} {rest : List Token} {token : Token}

/-- The names before points in a side are its owner or passed. -/
theorem mem_owners_side (fits : FitsSide rest phrases) (lexed : AreLexed (Phrase.text phrases))
    (member : token ∈ Token.owners (Phrase.text phrases)) :
    token ∈ sideOwner phrases ∨ token ∈ sideUnread phrases := by
  unfold sideOwner sideUnread
  split
  · next owners last =>
    have cases := Phrase.mem_owners_text fits.fit lexed member
    simpa [Phrase.qualifiers, Phrase.unread] using cases
  · exact .inr ((Token.owners_sublist _).subset member)

/-- The names before points in an equation are the owners of its sides or passed. -/
theorem mem_owners_tokens (fits : equation.Fits rest) (lexed : AreLexed equation.tokens)
    (member : token ∈ Token.owners equation.tokens) :
    token ∈ equation.owners ∨ token ∈ equation.unread := by
  have word : equation.word.kind.isIdentifier = false := by
    rcases fits.word with is | is <;> simp [is, TokenKind.isIdentifier]
  have behindWord : Token.Splits [equation.word]
      (Phrase.text equation.left ++ ([equation.sign] ++ Phrase.text equation.right)) :=
    Token.splits_of_no_name (by simpa using word) _
  have behindLeft : Token.Splits (Phrase.text equation.left)
      ([equation.sign] ++ Phrase.text equation.right) := .inl (by simp [fits.sign])
  have behindSign : Token.Splits [equation.sign] (Phrase.text equation.right) :=
    Token.splits_of_no_name (by simp [fits.sign, TokenKind.isIdentifier]) _
  have split : equation.tokens = [equation.word] ++ (Phrase.text equation.left ++
      ([equation.sign] ++ Phrase.text equation.right)) := by
    simp [tokens]
  rw [split] at member lexed
  rcases behindWord.mem_owners member with member | member
  · simp [Token.owners, Token.ownerBefore] at member
  rcases behindLeft.mem_owners member with member | member
  · rcases mem_owners_side fits.left lexed.right.left member with owner | passed
    · exact .inl (List.mem_append_left _ owner)
    · exact .inr (List.mem_append_left _ passed)
  rcases behindSign.mem_owners member with member | member
  · simp [Token.owners, Token.ownerBefore] at member
  · rcases mem_owners_side fits.right lexed.right.right.right member with owner | passed
    · exact .inl (List.mem_append_right _ owner)
    · exact .inr (List.mem_append_right _ passed)

end Equation

namespace Source
variable {source : Source} {known : List Table} {rest : List Token} {token : Token}

/-- The names before points in the condition of a join are the owners in its equations or passed. -/
theorem mem_owners_condition (fits : source.Fits rest) (lexed : AreLexed source.condition)
    (member : token ∈ Token.owners source.condition) :
    token ∈ source.equations.flatMap Equation.owners ∨
      token ∈ source.equations.flatMap Equation.unread ++ source.columns := by
  have behind : Token.Splits (source.equations.flatMap Equation.tokens) source.columns :=
    .inl (frontKind_columns_ne (.inl rfl) fits)
  rcases behind.mem_owners member with member | member
  · rw [Token.owners_flatMap (frontKind_equation_ne (.inl rfl) fits)] at member
    obtain ⟨equation, inside, member⟩ := List.mem_flatMap.mp member
    obtain ⟨_, fits⟩ := Token.Fit.of_mem fits.equations inside
    rcases Equation.mem_owners_tokens fits (lexed.left.of_mem_flatMap inside) member with
      owner | passed
    · exact .inl (List.mem_flatMap.mpr ⟨equation, inside, owner⟩)
    · exact .inr (List.mem_append_left _ (List.mem_flatMap.mpr ⟨equation, inside, passed⟩))
  · exact .inr (List.mem_append_right _ ((Token.owners_sublist _).subset member))

/-- The names before points in a source are its schema, or owners in its equations, or passed. -/
theorem mem_owners_tokens (known : List Table) (fits : source.Fits rest)
    (lexed : AreLexed source.tokens) (member : token ∈ Token.owners source.tokens) :
    token ∈ source.schema ∨ token ∈ source.anchors known ∨ token ∈ source.unread known := by
  have words : ∀ token ∈ source.introducer, token.kind.isIdentifier = false ∧
      token.kind ≠ .symbol .dot := fun token inside =>
    fits.kind_introducer (P := fun kind => kind.isIdentifier = false ∧ kind ≠ .symbol .dot) (by decide)
      inside
  have front : frontKind source.condition ≠ .symbol .dot :=
    frontKind_condition_ne (.inl rfl) fits
  have named := fits.named.kind_ne .dot
  have behindName : Token.Splits source.name (source.named ++ source.condition) :=
    .inl (Token.frontKind_ne named front)
  have behindNamed : Token.Splits source.named source.condition := .inl front
  have behindSchema : Token.Splits source.schema
      (source.name ++ (source.named ++ source.condition)) := by
    rcases fits.name with ⟨none, _⟩ | ⟨schema, point, are, _, is, _⟩
    · rw [none]
      exact Token.splits_of_no_name (by simp) _
    · rw [are]
      exact .inr (by simp [is, TokenKind.isIdentifier])
  rw [tokens, List.append_assoc, List.append_assoc, List.append_assoc] at member lexed
  rcases (Token.splits_of_no_name (fun token inside => (words token inside).1) _).mem_owners member
    with member | member
  · exact absurd member (Token.not_mem_owners fun token inside => (words token inside).2)
  rcases behindSchema.mem_owners member with member | member
  · exact .inl ((Token.owners_sublist _).subset member)
  right
  rcases behindName.mem_owners member with member | member
  · exfalso
    have single : source.name.length ≤ 1 := by
      rcases fits.name with ⟨_, name, is, _⟩ | ⟨_, _, _, _, _, short⟩
      · simp [is]
      · exact short
    rcases name : source.name with _ | ⟨only, _ | ⟨_, _⟩⟩
    · simp [name] at member
    · simp [name, Token.owners, Token.ownerBefore] at member
    · simp [name] at single
  rcases behindNamed.mem_owners member with member | member
  · exact absurd member (Token.not_mem_owners named)
  rcases mem_owners_condition fits lexed.right.right.right.right member with owner | passed
  · cases isTable : token.namesTable (known ++ source.tables) with
    | true =>
      exact .inl (List.mem_append_right _ (List.mem_filter.mpr ⟨owner, isTable⟩))
    | false =>
      exact .inr (List.mem_append_right _ (List.mem_filter.mpr ⟨owner, by simp [isTable]⟩))
  · exact .inr (List.mem_append_left _ passed)

/-- The names before points in the sources of a query are schemas, or owners of tables, or
passed. -/
theorem mem_owners_all {sources : List Source} (fit : Token.Fit tokens Fits sources rest)
    (lexed : AreLexed (sources.flatMap tokens))
    (member : token ∈ Token.owners (sources.flatMap tokens)) :
    token ∈ sources.flatMap schema ∨ token ∈ allAnchors known sources ∨
      token ∈ allUnread known sources := by
  have noPoint : ∀ source ∈ sources, frontKind source.tokens ≠ .symbol .dot := by
    intro source inside
    obtain ⟨_, fits⟩ := Token.Fit.of_mem fit inside
    exact frontKind_tokens_ne (.inl rfl) fits
  rw [Token.owners_flatMap noPoint] at member
  clear noPoint
  induction sources generalizing known with
  | nil => cases member
  | cons source sources ih =>
    rw [List.flatMap_cons] at member lexed
    rcases List.mem_append.mp member with member | member
    · rcases mem_owners_tokens known fit.1 lexed.left member with foreign | named | passed
      · exact .inl (List.mem_append_left _ foreign)
      · exact .inr (.inl (List.mem_append_left _ named))
      · exact .inr (.inr (List.mem_append_left _ passed))
    · rcases ih fit.2 lexed.right member with foreign | named | passed
      · exact .inl (List.mem_append_right _ foreign)
      · exact .inr (.inl (List.mem_append_right _ named))
      · exact .inr (.inr (List.mem_append_right _ passed))

end Source

namespace Piece
variable {piece : Piece} {rest : List Token} {token : Token}

/-- The names before points in a part of the later clauses are met or passed. -/
theorem mem_owners_tokens (fits : piece.Fits rest) (lexed : AreLexed piece.tokens)
    (member : token ∈ Token.owners piece.tokens) :
    token ∈ piece.qualifiers ∨ token ∈ piece.unread := by
  cases piece with
  | words tokens =>
    refine absurd member (Token.not_mem_owners fun token inside => ?_)
    rcases fits token inside with is | ⟨word, _, is⟩ <;> simp [is]
  | expression phrases => exact Phrase.mem_owners_text fits.2.1 lexed member

end Piece

namespace Query
variable {query : Query} {dialect : Dialect} {token : Token}

/-- The names before points in the projection list may name tables or stand in a call. -/
theorem mem_owners_projection (fits : query.Fits dialect)
    (member : token ∈ Token.owners query.projection) :
    token ∈ query.projectedAnchors ∨ token ∈ query.items.flatMap Projected.call := by
  obtain ⟨first, rest, items, noComma, commas⟩ := fits.commas
  have comma : ∀ item ∈ query.items, ∀ token ∈ item.comma, token.kind = .symbol .comma := by
    intro item inside token member
    rw [items] at inside
    rcases List.mem_cons.mp inside with rfl | inside
    · simp [noComma] at member
    · obtain ⟨comma, is, kind⟩ := commas item inside
      rw [is, List.mem_singleton] at member
      rwa [member]
  have noPoint : ∀ item ∈ rest, frontKind item.tokens ≠ .symbol .dot :=
    frontKind_item_ne (.inl rfl) commas
  have each : ∃ item ∈ query.items, token ∈ Token.owners item.tokens := by
    rw [projection, items, List.flatMap_cons] at member
    have split : Token.Splits first.tokens (rest.flatMap Projected.tokens) := by
      refine .inl ?_
      rw [← List.append_nil (rest.flatMap Projected.tokens)]
      exact Token.frontKind_flatMap_ne noPoint (by simp)
    rcases split.mem_owners member with member | member
    · exact ⟨first, by simp [items], member⟩
    · rw [Token.owners_flatMap noPoint] at member
      obtain ⟨item, inside, member⟩ := List.mem_flatMap.mp member
      exact ⟨item, by simp [items, inside], member⟩
  obtain ⟨item, inside, member⟩ := each
  obtain ⟨_, fits⟩ := Token.Fit.of_mem fits.items inside
  rcases Projected.mem_owners_tokens fits (comma item inside) member with owner | passed
  · exact .inl (List.mem_flatMap.mpr ⟨item, inside, owner⟩)
  · exact .inr (List.mem_flatMap.mpr ⟨item, inside, passed⟩)

/-- The names before points behind the tables are met or passed. -/
theorem mem_owners_clauses (fits : query.Fits dialect)
    (lexed : AreLexed (query.pieces.flatMap Piece.tokens))
    (member : token ∈ Token.owners (query.pieces.flatMap Piece.tokens ++ query.closing)) :
    token ∈ query.pieces.flatMap Piece.qualifiers ∨ token ∈ query.pieces.flatMap Piece.unread := by
  have split : Token.Splits (query.pieces.flatMap Piece.tokens) query.closing :=
    .inl (frontKind_closing_ne (.inl rfl) fits.closing)
  rcases split.mem_owners member with member | member
  · rw [Token.owners_flatMap (frontKind_piece_ne (.inl rfl) fits lexed)] at member
    obtain ⟨piece, inside, member⟩ := List.mem_flatMap.mp member
    obtain ⟨_, fits⟩ := Token.Fit.of_mem fits.pieces inside
    rcases Piece.mem_owners_tokens fits (lexed.of_mem_flatMap inside) member with met | passed
    · exact .inl (List.mem_flatMap.mpr ⟨piece, inside, met⟩)
    · exact .inr (List.mem_flatMap.mpr ⟨piece, inside, passed⟩)
  · exact absurd member (Token.not_mem_owners fits.closing)

/-- A name before a point that is the name of a table is an anchor, or it is the schema of a table,
or it is passed without being looked at. -/
theorem mem_owners (fits : query.Fits dialect) (lexed : AreLexed query.tokens)
    (member : token ∈ Token.owners query.tokens)
    (named : token.namesTable query.tables = true) :
    token ∈ query.anchors ∨ token ∈ query.schemas ∨ token ∈ query.unread := by
  have opening : ∀ token ∈ query.opening, token.kind.isIdentifier = false ∧
      token.kind ≠ .symbol .dot := by
    intro token inside
    obtain ⟨word, is⟩ := fits.opening token inside
    simp [is, TokenKind.isIdentifier]
  rw [tokens, List.append_assoc, List.append_assoc] at member lexed
  have words : Token.Splits query.opening (query.distinctOn ++ (query.projection ++ query.behind)) :=
    Token.splits_of_no_name (fun token inside => (opening token inside).1) _
  rcases words.mem_owners member with member | member
  · exact absurd member (Token.not_mem_owners fun token inside => (opening token inside).2)
  have group : Token.Splits query.distinctOn (query.projection ++ query.behind) := by
    rcases fits.distinctOn with none | ⟨_, group, _⟩
    · rw [none]
      exact Token.splits_of_no_name (by simp) _
    · exact group.splits _
  rcases group.mem_owners member with member | member
  · have passed := (Token.owners_sublist _).subset member
    simp [unread, passed]
  have behindLexed : AreLexed query.behind := lexed.right.right.right
  have items : Token.Splits query.projection query.behind :=
    .inl (frontKind_behind_ne (.inl rfl) fits fits.closing behindLexed)
  rcases items.mem_owners member with member | member
  · rcases mem_owners_projection fits member with owner | passed
    · exact .inl (List.mem_append_left _ owner)
    · have passed : token ∈ query.unread := by
        rw [unread]
        simp only [List.mem_append]
        exact .inl (.inl (.inr passed))
      exact .inr (.inr passed)
  rw [behind, List.append_assoc] at member behindLexed
  have clausesLexed := behindLexed.right.left
  have sources : Token.Splits (query.sources.flatMap Source.tokens)
      (query.pieces.flatMap Piece.tokens ++ query.closing) :=
    .inl (frontKind_clauses_ne (.inl rfl) fits fits.closing clausesLexed)
  rcases sources.mem_owners member with member | member
  · rcases Source.mem_owners_all fits.sources behindLexed.left member with foreign | owner | passed
    · exact .inr (.inl foreign)
    · exact .inl (List.mem_append_right _ (List.mem_append_left _ owner))
    · have passed : token ∈ query.unread := by
        rw [unread]
        simp only [List.mem_append]
        exact .inl (.inr passed)
      exact .inr (.inr passed)
  · rcases mem_owners_clauses fits clausesLexed member with met | passed
    · exact .inl (List.mem_append_right _
        (List.mem_append_right _ (List.mem_filter.mpr ⟨met, named⟩)))
    · exact .inr (.inr (List.mem_append_right _ passed))

end Query

end SelectRouting
