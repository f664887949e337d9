import Mathlib.Data.List.Flatten
import SelectRouting.Proofs.Query

/-!
# Where the anchors of a query stand

The tokens that a query offers for replacement stand in it in the order of the text
(`Query.anchors_sublist`). Each is the name of a table, or stands directly before a point
(`Query.anchor_cases`).
-/

namespace SelectRouting

namespace Token

/-- A point stands directly behind the token. -/
def Qualifies (tokens : List Token) (token : Token) : Prop :=
  ∃ point, point.kind = .symbol .dot ∧ [token, point] <:+: tokens

theorem Qualifies.of_inside {inner outer : List Token} {token : Token}
    (qualifies : Qualifies inner token) (inside : inner <:+: outer) : Qualifies outer token := by
  obtain ⟨point, is, stands⟩ := qualifies
  exact ⟨point, is, stands.trans inside⟩

theorem infix_flatMap {α : Type} {tokensOf : α → List Token} {parts : List α} {part : α}
    (member : part ∈ parts) : tokensOf part <:+: parts.flatMap tokensOf := by
  rw [List.flatMap_def]
  exact List.infix_of_mem_flatten (List.mem_map_of_mem member)

theorem qualifies_of_mem_owners {tokens : List Token} {token : Token}
    (member : token ∈ owners tokens) : Qualifies tokens token := by
  induction tokens with
  | nil => cases member
  | cons first tokens ih =>
    rcases List.mem_append.mp member with here | later
    · unfold ownerBefore at here
      split at here
      · next stands =>
        obtain rfl := List.mem_singleton.mp here
        simp only [Bool.and_eq_true, beq_iff_eq] at stands
        cases tokens with
        | nil => cases stands.2
        | cons point tokens => exact ⟨point, stands.2, (List.prefix_append [token, point] tokens).isInfix⟩
      · cases here
    · exact (ih later).of_inside (List.suffix_cons first tokens).isInfix

theorem namesTable_append_left {known more : List Table} {token : Token}
    (named : token.namesTable known = true) : token.namesTable (known ++ more) = true := by
  unfold namesTable at named ⊢
  rw [List.any_append, named, Bool.true_or]

end Token

open Token (Qualifies infix_flatMap)

namespace Phrase
variable {token : Token} {rest : List Token}

theorem lastOwner_sublist (owners : List (Token × Token)) :
    (owners.getLast?.map Prod.fst).toList.Sublist (joined owners) := by
  rcases List.eq_nil_or_concat owners with rfl | ⟨front, part, rfl⟩
  · exact List.nil_sublist _
  · simp [joined]

theorem qualifies_lastOwner {owners : List (Token × Token)} (dotted : Dotted owners)
    (member : token ∈ (owners.getLast?.map Prod.fst).toList) : Qualifies (joined owners) token := by
  rcases List.eq_nil_or_concat owners with rfl | ⟨front, part, rfl⟩
  · cases member
  · rw [List.concat_eq_append] at member dotted ⊢
    obtain rfl : token = part.1 := by simpa using member
    refine ⟨part.2, (dotted part (by simp)).2, ?_⟩
    rw [joined_append]
    exact (List.suffix_append (joined front) (joined [part])).isInfix

theorem qualifiers_sublist (phrase : Phrase) : phrase.qualifiers.Sublist phrase.tokens := by
  cases phrase with
  | mark | word | «variable» | cast => exact List.nil_sublist _
  | name owners _ => exact (lastOwner_sublist owners).trans (List.sublist_append_left _ _)
  | columns owners _ => exact (lastOwner_sublist owners).trans (List.sublist_append_left _ _)
  | call _ arguments => exact (Token.owners_sublist arguments).trans (List.sublist_cons_self _ _)

theorem qualifies_of_mem {phrase : Phrase} (fits : phrase.Fits rest)
    (member : token ∈ phrase.qualifiers) : Qualifies phrase.tokens token := by
  cases phrase with
  | mark | word | «variable» | cast => cases member
  | name owners last =>
    exact (qualifies_lastOwner fits.1 member).of_inside (List.prefix_append _ _).isInfix
  | columns owners star =>
    exact (qualifies_lastOwner fits.2.1 member).of_inside (List.prefix_append _ _).isInfix
  | call function arguments =>
    exact (Token.qualifies_of_mem_owners member).of_inside (List.suffix_cons _ _).isInfix

end Phrase

namespace Equation
variable {token : Token} {rest : List Token}

theorem sideOwner_sublist (phrases : List Phrase) :
    (sideOwner phrases).Sublist (Phrase.text phrases) := by
  unfold sideOwner
  split
  · next owners last =>
    simpa [Phrase.text, Phrase.qualifiers] using Phrase.qualifiers_sublist (.name owners last)
  · exact List.nil_sublist _

theorem owners_sublist (equation : Equation) :
    equation.owners.Sublist (Phrase.text equation.left ++ equation.sign ::
      Phrase.text equation.right) :=
  (sideOwner_sublist equation.left).append ((sideOwner_sublist equation.right).cons _)

theorem qualifies_sideOwner {phrases : List Phrase} (fits : FitsSide rest phrases)
    (member : token ∈ sideOwner phrases) : Qualifies (Phrase.text phrases) token := by
  unfold sideOwner at member
  split at member
  · next owners last =>
    have single : Phrase.text [.name owners last] = (Phrase.name owners last).tokens := by
      simp [Phrase.text]
    rw [single]
    exact Phrase.qualifies_of_mem fits.fit.1 member
  · cases member

theorem qualifies_of_mem {equation : Equation} (fits : equation.Fits rest)
    (member : token ∈ equation.owners) : Qualifies equation.tokens token := by
  rcases List.mem_append.mp member with left | right
  · refine (qualifies_sideOwner fits.left left).of_inside ?_
    exact ⟨[equation.word], equation.sign :: Phrase.text equation.right, by simp [tokens]⟩
  · refine (qualifies_sideOwner fits.right right).of_inside ?_
    exact ⟨equation.word :: Phrase.text equation.left ++ [equation.sign], [], by simp [tokens]⟩

end Equation

namespace Source
variable {token : Token} {rest : List Token}

theorem routed_sublist (source : Source) : source.routed.Sublist source.name := by
  unfold routed
  split
  · exact .refl _
  · exact List.nil_sublist _

theorem equationOwners_sublist (source : Source) :
    (source.equations.flatMap Equation.owners).Sublist source.condition := by
  refine (List.Sublist.flatMap_right _ fun equation _ => ?_).trans (List.sublist_append_left _ _)
  exact equation.owners_sublist.trans (List.sublist_cons_self _ _)

/-- The anchors of a table stand behind the words that introduce it. -/
theorem anchors_sublist (known : List Table) (source : Source) :
    (source.anchors known).Sublist
      (source.schema ++ source.name ++ source.named ++ source.condition) := by
  refine List.Sublist.append ?_ (List.filter_sublist.trans source.equationOwners_sublist)
  exact (source.routed_sublist.trans (List.sublist_append_right _ _)).trans
    (List.sublist_append_left _ _)

theorem tokens_eq (source : Source) : source.tokens = source.introducer ++
    (source.schema ++ source.name ++ source.named ++ source.condition) := by
  simp [tokens]

theorem allAnchors_sublist (known : List Table) (sources : List Source) :
    (allAnchors known sources).Sublist (sources.flatMap tokens) := by
  induction sources generalizing known with
  | nil => exact .slnil
  | cons source sources ih =>
    refine List.Sublist.append ?_ (ih _)
    rw [tokens_eq]
    exact (source.anchors_sublist known).trans (List.sublist_append_right _ _)

/-- The names of the tables are among the anchors. -/
theorem routed_subset_allAnchors (known : List Table) (sources : List Source) :
    sources.flatMap routed ⊆ allAnchors known sources := by
  induction sources generalizing known with
  | nil => exact List.Subset.refl _
  | cons source sources ih =>
    intro token member
    rw [List.flatMap_cons] at member
    rw [allAnchors]
    rcases List.mem_append.mp member with own | later
    · exact List.mem_append_left _ (List.mem_append_left _ own)
    · exact List.mem_append_right _ (ih _ later)

/-- The anchors of a table are its name, and owners in its condition that are known. -/
theorem mem_anchors {known : List Table} {source : Source} (fits : source.Fits rest)
    (member : token ∈ source.anchors known) : token ∈ source.routed ∨
      (token ∈ source.condition ∧ token.namesTable (known ++ source.tables) = true ∧
        Qualifies source.tokens token) := by
  rcases List.mem_append.mp member with name | owner
  · exact .inl name
  · obtain ⟨member, named⟩ := List.mem_filter.mp owner
    have conditional := source.equationOwners_sublist.subset member
    obtain ⟨equation, among, member⟩ := List.mem_flatMap.mp member
    obtain ⟨_, fitsEquation⟩ := fits.equations.of_mem among
    have inside : equation.tokens <:+: source.tokens := by
      refine (infix_flatMap among).trans ?_
      exact ⟨source.introducer ++ source.schema ++ source.name ++ source.named, source.columns, by
        simp [tokens, condition]⟩
    exact .inr ⟨conditional, named,
      (Equation.qualifies_of_mem fitsEquation member).of_inside inside⟩

theorem mem_allAnchors {known : List Table} {sources : List Source}
    (fit : Token.Fit tokens Fits sources rest) (member : token ∈ allAnchors known sources) :
    token ∈ sources.flatMap routed ∨
      (token ∈ sources.flatMap condition ∧
        token.namesTable (known ++ sources.flatMap tables) = true ∧
        Qualifies (sources.flatMap tokens) token) := by
  induction sources generalizing known with
  | nil => cases member
  | cons source sources ih =>
    rcases List.mem_append.mp member with here | later
    · rcases mem_anchors fit.1 here with name | ⟨conditional, named, qualifies⟩
      · exact .inl (List.mem_append_left _ name)
      · refine .inr ⟨List.mem_append_left _ conditional, ?_,
          qualifies.of_inside (List.prefix_append _ _).isInfix⟩
        rw [List.flatMap_cons, ← List.append_assoc]
        exact Token.namesTable_append_left named
    · rcases ih fit.2 later with name | ⟨conditional, named, qualifies⟩
      · exact .inl (List.mem_append_right _ name)
      · refine .inr ⟨List.mem_append_right _ conditional, ?_,
          qualifies.of_inside (List.suffix_append _ _).isInfix⟩
        rw [List.flatMap_cons, ← List.append_assoc]
        exact named

/-- A table that is routed has the name of its token. -/
theorem exists_table {sources : List Source} (member : token ∈ sources.flatMap routed) :
    ∃ table ∈ sources.flatMap tables, table.name = Text.stripQuotes token.lexeme := by
  obtain ⟨source, among, name⟩ := List.mem_flatMap.mp member
  exact ⟨_, List.mem_flatMap.mpr ⟨source, among, List.mem_map_of_mem name⟩, rfl⟩

end Source

namespace Piece

theorem qualifies_of_mem {piece : Piece} {token : Token} {rest : List Token}
    (fits : piece.Fits rest) (member : token ∈ piece.qualifiers) :
    Qualifies piece.tokens token := by
  cases piece with
  | words => cases member
  | expression phrases =>
    obtain ⟨phrase, among, member⟩ := List.mem_flatMap.mp member
    obtain ⟨_, fitsPhrase⟩ := Token.Fit.of_mem fits.2.1 among
    exact (Phrase.qualifies_of_mem fitsPhrase member).of_inside (infix_flatMap among)

end Piece

namespace Query
variable {query : Query} {dialect : Dialect} {token : Token}

theorem projectedAnchors_sublist (query : Query) :
    query.projectedAnchors.Sublist query.projection := by
  refine List.Sublist.flatMap_right _ fun item _ => ?_
  refine (Token.owners_sublist item.text).trans ?_
  exact (List.sublist_append_right _ _).trans (List.sublist_append_left _ _)

theorem pieces_sublist (query : Query) :
    (query.pieces.flatMap Piece.qualifiers).Sublist (query.pieces.flatMap Piece.tokens) := by
  refine List.Sublist.flatMap_right _ fun piece _ => ?_
  cases piece with
  | words => exact List.nil_sublist _
  | expression phrases =>
    exact List.Sublist.flatMap_right _ fun phrase _ => phrase.qualifiers_sublist

/-- The anchors behind the projection list stand behind the token that ends it. -/
theorem laterAnchors_sublist (fits : query.Fits dialect) :
    query.laterAnchors.Sublist query.behind.tail := by
  have clauses : ((query.pieces.flatMap Piece.qualifiers).filter
      (Token.namesTable query.tables)).Sublist (query.pieces.flatMap Piece.tokens) :=
    List.filter_sublist.trans query.pieces_sublist
  unfold laterAnchors behind
  cases sources : query.sources with
  | nil =>
    have noTable : ∀ tokens, List.filter (Token.namesTable query.tables) tokens = [] := by
      simp [Token.namesTable, tables, sources]
    rw [noTable]
    exact List.nil_sublist _
  | cons source others =>
    have fit := fits.sources
    rw [sources] at fit
    obtain ⟨word, words, introducer⟩ := List.exists_cons_of_ne_nil fit.1.introducer_ne_nil
    have own : (Source.allAnchors [] (source :: others)).Sublist
        ((source :: others).flatMap Source.tokens).tail := by
      rw [List.flatMap_cons, Source.tokens_eq, introducer]
      refine List.Sublist.append ?_ (Source.allAnchors_sublist _ others)
      exact (source.anchors_sublist []).trans (List.sublist_append_right words _)
    have some : (source :: others).flatMap Source.tokens ≠ [] := by
      simp [Source.tokens, introducer]
    rw [List.append_assoc, List.tail_append_of_ne_nil some]
    exact own.append (clauses.trans (List.sublist_append_left _ _))

theorem anchors_sublist (fits : query.Fits dialect) : query.anchors.Sublist query.tokens := by
  refine List.Sublist.append ?_ ((laterAnchors_sublist fits).trans (List.tail_sublist _))
  exact query.projectedAnchors_sublist.trans (List.sublist_append_right _ _)

theorem qualifies_of_mem_projectedAnchors (member : token ∈ query.projectedAnchors) :
    Qualifies query.projection token := by
  obtain ⟨item, among, member⟩ := List.mem_flatMap.mp member
  refine ((Token.qualifies_of_mem_owners member).of_inside ?_).of_inside (infix_flatMap among)
  exact ⟨item.comma ++ item.call, item.named, rfl⟩

/-- The tokens of the join conditions and of the clauses behind the tables. -/
def conditions (query : Query) : List Token :=
  query.sources.flatMap Source.condition ++ query.pieces.flatMap Piece.tokens

/-- An anchor is an owner in the projection list, the name of a table, or the owner of a column
in a condition or a later clause that is a table. -/
theorem anchor_cases (fits : query.Fits dialect) (member : token ∈ query.anchors) :
    (token ∈ query.projectedAnchors ∧ Qualifies query.tokens token) ∨ token ∈ query.factors ∨
      (token ∈ query.conditions ∧ token.namesTable query.tables = true ∧
        Qualifies query.tokens token) := by
  rcases List.mem_append.mp member with projected | later
  · refine .inl ⟨projected, (qualifies_of_mem_projectedAnchors projected).of_inside ?_⟩
    exact ⟨query.opening ++ query.distinctOn, query.behind, by simp [tokens]⟩
  · right
    rcases List.mem_append.mp later with source | owner
    · rcases Source.mem_allAnchors fits.sources source with name | ⟨conditional, named, qualifies⟩
      · exact .inl name
      · refine .inr ⟨List.mem_append_left _ conditional, named, qualifies.of_inside ?_⟩
        exact ⟨query.opening ++ query.distinctOn ++ query.projection,
          query.pieces.flatMap Piece.tokens ++ query.closing, by simp [tokens, behind]⟩
    · obtain ⟨member, named⟩ := List.mem_filter.mp owner
      have inside := query.pieces_sublist.subset member
      obtain ⟨piece, among, member⟩ := List.mem_flatMap.mp member
      obtain ⟨_, fitsPiece⟩ := fits.pieces.of_mem among
      have qualifies := Piece.qualifies_of_mem fitsPiece member
      refine .inr ⟨List.mem_append_right _ inside, named,
        (qualifies.of_inside (infix_flatMap among)).of_inside ?_⟩
      exact ⟨query.opening ++ query.distinctOn ++ query.projection ++
        query.sources.flatMap Source.tokens, query.closing, by simp [tokens, behind]⟩

end Query

section Written
variable {token : Token} {rest : List Token}

theorem Token.isWritten_of_mem_owners {tokens : List Token} (member : token ∈ owners tokens) :
    token.kind.isWritten = true := by
  induction tokens with
  | nil => cases member
  | cons first tokens ih =>
    rcases List.mem_append.mp member with here | later
    · unfold ownerBefore at here
      split at here
      · next stands =>
        rw [List.mem_singleton.mp here]
        cases is : first.kind <;> simp [is, TokenKind.isIdentifier] at stands
        rfl
      · cases here
    · exact ih later

theorem Phrase.isWritten_lastOwner {owners : List (Token × Token)} (dotted : Dotted owners)
    (member : token ∈ (owners.getLast?.map Prod.fst).toList) : token.kind.isWritten = true := by
  obtain ⟨part, last, rfl⟩ := Option.map_eq_some_iff.mp (Option.mem_toList.mp member)
  exact (dotted part (List.mem_of_getLast? last)).1

theorem Phrase.isWritten_of_mem {phrase : Phrase} (fits : phrase.Fits rest)
    (member : token ∈ phrase.qualifiers) : token.kind.isWritten = true := by
  cases phrase with
  | mark | word | «variable» | cast => cases member
  | name owners last => exact isWritten_lastOwner fits.1 member
  | columns owners star => exact isWritten_lastOwner fits.2.1 member
  | call function arguments => exact Token.isWritten_of_mem_owners member

theorem Equation.isWritten_of_mem {equation : Equation} (fits : equation.Fits rest)
    (member : token ∈ equation.owners) : token.kind.isWritten = true := by
  have side {phrases : List Phrase} {rest : List Token} (fits : FitsSide rest phrases)
      (member : token ∈ sideOwner phrases) : token.kind.isWritten = true := by
    unfold sideOwner at member
    split at member
    · exact Phrase.isWritten_of_mem fits.fit.1 member
    · cases member
  exact (List.mem_append.mp member).elim (side fits.left) (side fits.right)

theorem Source.isWritten_of_mem {known : List Table} {source : Source} (fits : source.Fits rest)
    (member : token ∈ source.anchors known) : token.kind.isWritten = true := by
  rcases List.mem_append.mp member with name | owner
  · unfold routed at name
    split at name
    · next empty =>
      rcases fits.name with ⟨_, given, is, identifier⟩ | ⟨_, _, given, _⟩
      · rw [is, List.mem_singleton] at name
        rw [name]
        cases kind : given.kind <;> simp [kind, TokenKind.isIdentifier] at identifier
        rfl
      · simp [given] at empty
    · cases name
  · obtain ⟨equation, among, member⟩ := List.mem_flatMap.mp (List.mem_filter.mp owner).1
    obtain ⟨_, fitsEquation⟩ := fits.equations.of_mem among
    exact Equation.isWritten_of_mem fitsEquation member

theorem Source.isWritten_of_mem_all {known : List Table} {sources : List Source}
    (fit : Token.Fit tokens Fits sources rest) (member : token ∈ allAnchors known sources) :
    token.kind.isWritten = true := by
  induction sources generalizing known with
  | nil => cases member
  | cons source sources ih =>
    exact (List.mem_append.mp member).elim (isWritten_of_mem fit.1) (ih fit.2)

/-- An anchor is a word. -/
theorem Query.isWritten_of_anchor {query : Query} {dialect : Dialect} (fits : query.Fits dialect)
    (member : token ∈ query.anchors) : token.kind.isWritten = true := by
  rcases List.mem_append.mp member with projected | later
  · obtain ⟨item, _, member⟩ := List.mem_flatMap.mp projected
    exact Token.isWritten_of_mem_owners member
  rcases List.mem_append.mp later with source | owner
  · exact Source.isWritten_of_mem_all fits.sources source
  · obtain ⟨piece, among, member⟩ := List.mem_flatMap.mp (List.mem_filter.mp owner).1
    obtain ⟨_, fitsPiece⟩ := fits.pieces.of_mem among
    cases piece with
    | words => cases member
    | expression phrases =>
      obtain ⟨phrase, inside, member⟩ := List.mem_flatMap.mp member
      obtain ⟨_, fitsPhrase⟩ := Token.Fit.of_mem fitsPiece.2.1 inside
      exact Phrase.isWritten_of_mem fitsPhrase member

end Written

end SelectRouting
