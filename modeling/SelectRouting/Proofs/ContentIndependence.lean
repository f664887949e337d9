import SelectRouting.Proofs.AddedColumns
import SelectRouting.Proofs.Parallel
import SelectRouting.Proofs.StringLiterals

/-!
# Contents of string literals

What is written in a string literal is data: texts that differ in the content of one literal only are
analysed to the same error or to statements with the same names, keys and numbers
(`Statement.ofText_reworded`). The literal may not stand behind a point, where it names a column. Its
content is looked at in one other place: a star in quotes that begins an item is the star itself.
-/

namespace SelectRouting

open Text (stripQuotes)

/-- A text that begins with a quote is no word that is looked for. -/
theorem Token.not_spells_of_quote {lexeme word : String} (quoted : lexeme.toList.head? = some '\x27')
    (loose : word ∈ Cursor.looseWords) : Text.sameIgnoringCase lexeme word = false := by
  have unquoted : word.toList.all (!Text.isQuote ·) = true := by
    revert word
    decide
  refine Bool.eq_false_iff.mpr fun same => ?_
  have caseless : Text.IsCaseless '\x27' := by decide
  have first := congrArg List.head? (Text.sameIgnoringCase_iff.mp same)
  rw [List.head?_map, List.head?_map, quoted, Option.map_some] at first
  obtain ⟨c, begins, is⟩ := Option.map_eq_some_iff.mp first.symm
  obtain rfl := caseless.toLower_eq_iff.mp is
  have inside := List.all_eq_true.mp unquoted _ (List.mem_of_mem_head? begins)
  revert inside
  decide

variable {front back : String}

namespace StringLiteral

/-- No point stands directly before the literal. -/
def IsFree (literal : StringLiteral front back) : Prop :=
  (Token.list literal.text).IsChain fun token next =>
    next = literal.token → token.kind ≠ .symbol .dot

instance (literal : StringLiteral front back) : Decidable literal.IsFree :=
  inferInstanceAs (Decidable (List.IsChain _ _))

/-- An item of the projection list begins with the literal. -/
def BeginsItem (literal : StringLiteral front back) (dialect : Dialect) : Prop :=
  ∃ position begins, AnalysisStep.ItemStart dialect
    { cursor := { text := literal.text, rest := Token.list literal.text } } position begins ∧
      begins.cursor.current = literal.token

/-- The literal is read as the alias of a table: it stands directly behind the name of a table that the
statement has recorded, or behind an `AS` there. -/
def IsTableAlias (literal : StringLiteral front back) (statement : Statement) : Prop :=
  ∃ before name introducer behind,
    Token.list literal.text = before ++ name :: (introducer ++ literal.token :: behind) ∧
      name.edit ∈ statement.edits ∧
        (introducer = [] ∨ ∃ word, introducer = [word] ∧ word.kind = .keyword .AS)

end StringLiteral

/-- The numbers of tokens count in place of their offsets, and the texts of tokens up to the content of
the literal. -/
def Likeness.reworded (literal literal' : StringLiteral front back) : Likeness where
  text written written' := written = written' ∨
    (stripQuotes written = stripQuotes literal.content ∧
      stripQuotes written' = stripQuotes literal'.content)
  quote _ _ := True
  place := SamePlace literal.text literal'.text
  count := Eq
  name := Eq
  token token token' := Token.SameNumber literal.text literal'.text token token' ∧
    (token.lexeme = token'.lexeme ∨ token = literal.token ∧ token' = literal'.token)

section Reworded
variable {literal literal' : StringLiteral front back}

/-- Tokens of the same number are the same, up to where they stand, or they are the literals. -/
theorem StringLiteral.content_or_literal {token token' : Token}
    (number : Token.SameNumber literal.text literal'.text token token') :
    token.content = token'.content ∨ token = literal.token ∧ token' = literal'.token := by
  obtain ⟨before, behind, behind', own, other, same⟩ := literal.exists_around literal'
  obtain ⟨n, found, found'⟩ := number
  rw [Token.tokenize, own, List.append_assoc] at found
  rw [Token.tokenize, other, List.append_assoc] at found'
  rcases Nat.lt_trichotomy n before.length with less | rfl | greater
  · rw [List.getElem?_append_left less] at found found'
    rw [Option.some.inj (found.symm.trans found')]
    exact .inl rfl
  · rw [List.getElem?_append_right (Nat.le_refl _), Nat.sub_self] at found found'
    exact .inr ⟨(Option.some.inj found).symm, (Option.some.inj found').symm⟩
  · obtain ⟨k, is⟩ : ∃ k, n - before.length = k + 1 := ⟨n - before.length - 1, by omega⟩
    rw [List.getElem?_append_right (Nat.le_of_lt greater), is, List.cons_append,
      List.getElem?_cons_succ] at found found'
    have all : (behind ++ [Token.eof literal.text.utf8ByteSize]).map Token.content =
        (behind' ++ [Token.eof literal'.text.utf8ByteSize]).map Token.content := by
      rw [List.map_append, List.map_append, same]
      rfl
    have here := congrArg (fun contents => contents[k]?) all
    rw [List.getElem?_map, List.getElem?_map, found, found'] at here
    exact .inl (Option.some.inj here)

theorem StringLiteral.length_eq (literal literal' : StringLiteral front back) :
    (Token.list literal'.text).length = (Token.list literal.text).length := by
  obtain ⟨before, behind, behind', own, other, same⟩ := literal.exists_around literal'
  have length := congrArg List.length same
  rw [List.length_map, List.length_map] at length
  rw [own, other, List.length_append, List.length_append, List.length_cons, List.length_cons, length]

instance : (Likeness.reworded literal literal').Lawful where
  refl _ := rfl
  append left right := congrArg₂ (· ++ ·) left right
  stripQuotes_name same := congrArg stripQuotes same
  text_of_name := .inl
  stripQuotes same := by
    refine same.imp (congrArg stripQuotes) fun same => ?_
    rwa [Text.stripQuotes_stripQuotes, Text.stripQuotes_stripQuotes]
  name_of_word alike isWord := by
    rcases alike.common.2 with same | ⟨rfl, -⟩
    · exact same
    · cases isWord
  spells alike _ loose := by
    rcases alike.common.2 with same | ⟨rfl, rfl⟩
    · rw [same]
    · exact (Token.not_spells_of_quote literal'.quoted loose).trans
        (Token.not_spells_of_quote literal.quoted loose).symm
  stripQuotes_quote := id
  quote_empty := trivial
  count_succ := congrArg Nat.succ

instance : (Likeness.reworded literal literal').Ordered where
  le_iff places tokens := places.le_iff (literal.length_eq literal') tokens.common.1

instance : (Likeness.reworded literal literal').Exact := ⟨id, id⟩

/-- The literals have the same number. -/
theorem StringLiteral.sameNumber (literal literal' : StringLiteral front back) :
    Token.SameNumber literal.text literal'.text literal.token literal'.token := by
  obtain ⟨before, behind, behind', own, other, -⟩ := literal.exists_around literal'
  refine ⟨before.length, ?_, ?_⟩
  · simp [Token.tokenize, own]
  · simp [Token.tokenize, other]

/-- Only the other literal has the number of a literal. -/
theorem StringLiteral.eq_of_number {token' : Token}
    (number : Token.SameNumber literal.text literal'.text literal.token token') :
    token' = literal'.token := by
  obtain ⟨n, found, found'⟩ := number
  obtain ⟨m, own, other⟩ := literal.sameNumber literal'
  obtain rfl := Token.number_eq found own rfl
  exact Option.some.inj (found'.symm.trans other)

theorem StringLiteral.IsFree.ne_point (free : literal.IsFree) {n : Nat} {point : Token}
    (pointed : (Token.tokenize literal.text)[n]? = some point)
    (found : (Token.tokenize literal.text)[n + 1]? = some literal.token) :
    point.kind ≠ .symbol .dot := by
  have inside : n + 1 < (Token.list literal.text).length := by
    refine Nat.lt_of_le_of_ne (Token.lt_length_tokenize found) fun last => ?_
    rw [last, Token.tokenize, List.getElem?_append_right (Nat.le_refl _), Nat.sub_self] at found
    cases congrArg Token.kind (Option.some.inj found)
  have here := List.isChain_iff_getElem.mp free n inside
  rw [Token.getElem?_tokenize inside] at found
  rw [Token.getElem?_tokenize (Nat.lt_of_succ_lt inside)] at pointed
  rw [← Option.some.inj pointed]
  exact here (Option.some.inj found)

/-- Before the other literal stands no point either. -/
theorem StringLiteral.IsFree.moved (free : literal.IsFree) (literal' : StringLiteral front back) :
    literal'.IsFree := by
  refine List.isChain_iff_getElem.mpr fun n inside next isPoint => ?_
  have own : n + 1 < (Token.list literal.text).length := literal.length_eq literal' ▸ inside
  have found := Token.getElem?_tokenize inside
  have pointed := Token.getElem?_tokenize (Nat.lt_of_succ_lt inside)
  have foundOwn := Token.getElem?_tokenize own
  have pointedOwn := Token.getElem?_tokenize (Nat.lt_of_succ_lt own)
  rw [next] at found
  rw [StringLiteral.eq_of_number ⟨_, found, foundOwn⟩] at foundOwn
  rcases StringLiteral.content_or_literal ⟨_, pointed, pointedOwn⟩ with same | ⟨is, -⟩
  · exact free.ne_point pointedOwn foundOwn ((Token.kind_eq_of_content same).symm.trans isPoint)
  · rw [is] at isPoint
    cases isPoint

/-- The cursors before the first tokens are alike. -/
theorem Cursor.like_reworded (free : literal.IsFree) : Cursor.Like (.reworded literal literal')
    { text := literal.text, rest := Token.list literal.text }
    { text := literal'.text, rest := Token.list literal'.text } := by
  refine like_of_numbers (literal.length_eq literal') (fun {token other} number => ?_)
    (fun {n point token other} pointed isPoint found found' => ?_) .front rfl fun _ _ => trivial
  · have places : Span.Like (.reworded literal literal') token.span other.span :=
      ⟨.start number, .stop number⟩
    rcases StringLiteral.content_or_literal number with same | ⟨rfl, rfl⟩
    · obtain ⟨kind, lexeme⟩ := Prod.mk.inj same
      refine ⟨?_, .inl lexeme, places, number, .inl lexeme⟩
      rw [kind]
      exact .same _
    · exact ⟨.string (.inr ⟨rfl, rfl⟩), .inr ⟨literal.stripQuotes_lexeme, literal'.stripQuotes_lexeme⟩,
        places, number, .inr ⟨rfl, rfl⟩⟩
  · rcases StringLiteral.content_or_literal ⟨_, found, found'⟩ with same | ⟨rfl, -⟩
    · exact congrArg Prod.snd same
    · exact absurd isPoint (free.ne_point pointed found)

open AnalysisStep in
/-- Items begin in the same way where both literals are stars or none is, or where no item begins with
the literal. -/
theorem StringLiteral.sameFront {dialect : Dialect} (plain : dialect.itemWord = none)
    (stars : (stripQuotes literal.content = "*" ↔ stripQuotes literal'.content = "*") ∨
      ¬ literal.BeginsItem dialect) {position : Nat} {begins begins' : Analysis}
    (starts : ItemStart dialect { cursor := { text := literal.text, rest := Token.list literal.text } }
      position begins) (alike : Cursor.Like (.reworded literal literal') begins.cursor begins'.cursor) :
    SameFront dialect begins.cursor begins'.cursor := by
  refine ⟨fun word given => by simp [plain] at given, ?_⟩
  unfold itemFront
  rw [plain]
  dsimp only
  rcases alike.current.common.2 with same | ⟨here, there⟩
  · rw [same]
  · rcases stars with both | none
    · rw [here, there, Bool.eq_iff_iff, beq_iff_eq, beq_iff_eq]
      change stripQuotes literal'.lexeme = "*" ↔ stripQuotes literal.lexeme = "*"
      rw [literal.stripQuotes_lexeme, literal'.stripQuotes_lexeme, both]
    · exact absurd ⟨position, begins, starts, here⟩ none

end Reworded

namespace AnalysisStep.ItemStart
open Step

variable {dialect : Dialect} {before begins after : Analysis} {position : Nat}

/-- The tokens that are left where an item begins are the last ones of the query. -/
theorem exists_passed (noWord : dialect.itemWord = none)
    (starts : ItemStart dialect before position begins) :
    ∃ tokens, before.cursor.rest = tokens ++ begins.cursor.rest := by
  induction starts with
  | first begun =>
    obtain ⟨_, _, first, rest⟩ := yields_bind.mp begun
    obtain ⟨cursor, scanned, rfl⟩ := yields_scan.mp first
    obtain ⟨token, -, passes⟩ := Scan.expectKeyword_passes scanned
    obtain ⟨words, group, -, reads⟩ := distinct_reads rest
    exact ⟨[token] ++ (words ++ group), by rw [passes.rest, reads.moves.rest, ← List.append_assoc]⟩
  | next _ round ih =>
    obtain ⟨tokens, are⟩ := ih
    obtain ⟨_, _, _, _, _, _, ⟨_, _, ended⟩ | ⟨_, _, _, reads, _⟩⟩ := itemRound_reads noWord round
    · cases ended
    · exact ⟨_, by rw [are, reads.moves.rest, ← List.append_assoc]⟩

/-- The rounds that are left where an item begins lead to the end of the list. -/
theorem exists_rounds (starts : ItemStart dialect before position begins)
    (answers : Yields (head dialect) before () after) :
    ∃ last, Rounds (itemRound dialect) position begins () last ∧ last.cursor = after.cursor := by
  obtain ⟨_, _, first, rest⟩ := yields_bind.mp answers
  obtain ⟨_, opening, second, projected⟩ := yields_bind.mp rest
  obtain ⟨_, last, ran, noted⟩ := yields_bind.mp projected
  rw [yields_look_bind] at noted
  obtain rfl := yields_change.mp noted
  refine ⟨last, ?_, rfl⟩
  induction starts with
  | first begun =>
    obtain ⟨-, rfl⟩ := begun.unique (yields_bind.mpr ⟨_, _, first, second⟩)
    exact rounds_of_rounding ran
  | next _ round ih =>
    cases ih with
    | done answers => cases (answers.unique round).1
    | next answers more =>
      obtain ⟨same, rfl⟩ := answers.unique round
      cases same
      exact more

end AnalysisStep.ItemStart

/-- No item begins with a literal behind the projection list. -/
theorem StringLiteral.not_beginsItem {dialect : Dialect} (plain : dialect.IsPlain)
    {literal : StringLiteral front back} {statement : Statement}
    (accepted : Statement.ofText dialect literal.text = .ok statement)
    (behind : statement.projectionEnd ≤ front.utf8ByteSize) : ¬ literal.BeginsItem dialect := by
  rintro ⟨position, begins, starts, current⟩
  obtain ⟨query, describes⟩ := Statement.exists_query plain accepted
  obtain ⟨middle, head, -, later⟩ := describes.head
  obtain ⟨passed, are⟩ := starts.exists_passed plain.itemWord
  obtain ⟨last, ran, same⟩ := starts.exists_rounds head
  obtain ⟨item, items, -, -, fit, -, -, reads⟩ := AnalysisStep.items_read plain.itemWord ran
  obtain ⟨token, more, tokens⟩ := List.exists_cons_of_ne_nil fit.1.tokens_ne_nil
  have rest := reads.moves.rest
  rw [List.flatMap_cons, tokens, same, later] at rest
  obtain rfl : token = literal.token := by
    rw [← current, Cursor.current, Cursor.peek, rest]
    rfl
  rw [rest, ← List.append_assoc] at are
  have stop := @Token.stop_le_frontStart _ _ _ literal.token are (by simp)
  have some := literal.isLexed.start_lt_stop
  rw [describes.projectionEnd] at behind
  exact absurd (Nat.lt_of_lt_of_le some stop) (Nat.not_lt.mpr behind)

/-- The alias of a table stands directly behind the name of the table, which is recorded, or behind an
`AS` there. -/
theorem Query.Describes.exists_alias {query : Query} {dialect : Dialect} {text : String}
    {statement : Statement} (describes : query.Describes dialect text statement) {table : Table}
    (member : table ∈ statement.tables) {given : String} (aliased : table.aliasName = some given) :
    ∃ before name introducer token behind,
      Token.list text = before ++ name :: (introducer ++ token :: behind) ∧
        name.edit ∈ statement.edits ∧
        (introducer = [] ∨ ∃ word, introducer = [word] ∧ word.kind = .keyword .AS) ∧
          given = stripQuotes token.lexeme := by
  rw [describes.tables, Query.tables, List.mem_flatMap] at member
  obtain ⟨source, inside, member⟩ := member
  obtain ⟨name, routed, rfl⟩ := List.mem_map.mp member
  obtain ⟨_, fits⟩ := Token.Fit.of_mem describes.fits.sources inside
  have recorded : name.edit ∈ statement.edits := by
    rw [describes.edits_eq]
    refine List.mem_append_left _ (List.mem_map_of_mem ?_)
    refine List.mem_append_right _ (List.mem_append_left _ ?_)
    exact Source.routed_subset_allAnchors [] _ (List.mem_flatMap.mpr ⟨source, inside, routed⟩)
  obtain ⟨noSchema, is⟩ : source.schema = [] ∧ source.name = [name] := by
    rcases fits.name with ⟨noSchema, token, is, -⟩ | ⟨schema, point, are, -⟩
    · refine ⟨noSchema, ?_⟩
      simp only [Source.routed, noSchema, is, List.isEmpty_nil, if_true, List.mem_singleton] at routed
      rw [is, routed]
    · simp [Source.routed, are] at routed
  obtain ⟨introducer, token, named, introduces, same⟩ : ∃ introducer token,
      source.named = introducer ++ [token] ∧
        (introducer = [] ∨ ∃ word, introducer = [word] ∧ word.kind = .keyword .AS) ∧
          given = stripQuotes token.lexeme := by
    have named := fits.named
    rw [show Token.aliasIn source.named = some given from aliased] at named
    generalize source.named = tokens at named
    cases named with
    | introduced isWord => exact ⟨[_], _, rfl, .inr ⟨_, rfl, isWord⟩, rfl⟩
    | bare => exact ⟨[], _, rfl, .inl rfl, rfl⟩
  obtain ⟨first, last, sources⟩ := List.append_of_mem inside
  refine ⟨query.opening ++ query.distinctOn ++ query.projection ++ first.flatMap Source.tokens ++
    source.introducer, name, introducer, token, source.condition ++ last.flatMap Source.tokens ++
      query.pieces.flatMap Piece.tokens ++ query.closing, ?_, recorded, introduces, same⟩
  rw [describes.tokens, Query.tokens, Query.behind, sources, List.flatMap_append, List.flatMap_cons,
    Source.tokens, noSchema, is, named]
  simp only [List.append_assoc, List.cons_append, List.nil_append]

/-- The statements have the same names, keys and numbers and items of the same kinds. The tables also
have the same aliases, unless the literal is one of them. -/
structure Statement.Reworded (literal literal' : StringLiteral front back)
    (statement other : Statement) : Prop where
  containsStar : other.containsStar = statement.containsStar
  items : List.Forall₂ (Item.Like (.reworded literal literal')) statement.items other.items
  names : other.tables.map Table.name = statement.tables.map Table.name
  tables : ¬ literal.IsTableAlias statement → other.tables = statement.tables
  limit : other.limit = statement.limit
  parameters : other.parameters = statement.parameters
  orderBy : other.orderBy.map OrderKey.bare = statement.orderBy.map OrderKey.bare
  groupBy : other.groupBy.map ColumnKey.bare = statement.groupBy.map ColumnKey.bare

namespace Statement
variable {literal literal' : StringLiteral front back} {s s' : Statement}

/-- Whether the literal is read as the alias of a table does not depend on what is written in it. -/
theorem Parallel.isTableAlias (parallel : Parallel (.reworded literal literal') s s')
    (aliased : literal'.IsTableAlias s') : literal.IsTableAlias s := by
  obtain ⟨before, name, introducer, behind, are, recorded, introduces⟩ := aliased
  obtain ⟨front, back, back', own, other, -⟩ := literal.exists_around literal'
  have split : front = before ++ name :: introducer := by
    have here : (Token.tokenize literal'.text)[(before ++ name :: introducer).length]? =
        some literal'.token := by simp [Token.tokenize, are]
    have there : (Token.tokenize literal'.text)[front.length]? = some literal'.token := by
      simp [Token.tokenize, other]
    have whole : front ++ (literal'.token :: back') =
        (before ++ name :: introducer) ++ literal'.token :: behind := by
      rw [← other, are, List.append_assoc, List.cons_append]
    exact (List.append_inj whole (Token.number_eq there here rfl)).1
  rw [split, List.append_assoc, List.cons_append] at own
  refine ⟨before, name, introducer, back, own, ?_, introduces⟩
  obtain ⟨edit, among, at'⟩ := parallel.exists_edit recorded rfl
  generalize is : name.edit = edit' at at'
  obtain @⟨token, token', alike, -⟩ := at'
  obtain ⟨n, found, found'⟩ := alike.common.1
  obtain ⟨start, -⟩ := Edit.tableName.inj is
  have named : (Token.tokenize literal.text)[before.length]? = some name := by
    simp [Token.tokenize, own]
  have named' : (Token.tokenize literal'.text)[before.length]? = some name := by
    simp [Token.tokenize, are]
  obtain rfl := Token.number_eq named' found' start
  rw [Option.some.inj (found.symm.trans named)] at among
  rwa [← is]

/-- The aliases of tables have no quotes. -/
theorem stripQuotes_alias {query : Query} {dialect : Dialect} {text : String}
    (describes : query.Describes dialect text s) :
    ∀ table ∈ s.tables, ∀ given ∈ table.aliasName, stripQuotes given = given := by
  intro table member given aliased
  obtain ⟨_, _, _, _, _, -, -, -, rfl⟩ := describes.exists_alias member aliased
  exact Text.stripQuotes_stripQuotes _

/-- The tables are the same as with a literal whose value is that of no other token, unless the literal
is the alias of a table. -/
theorem Parallel.tables_eq_fresh {fresh : StringLiteral front back}
    (unique : ∀ token ∈ Token.list fresh.text,
      stripQuotes token.lexeme = stripQuotes fresh.content → token = fresh.token)
    {query : Query} {dialect : Dialect} (describes : query.Describes dialect fresh.text s')
    (unaliased : ¬ fresh.IsTableAlias s') (parallel : Parallel (.reworded literal fresh) s s') :
    s'.tables = s.tables := by
  refine parallel.tables_eq fun _ _ table' member' given _ given' aliased' alike => ?_
  rcases alike with same | ⟨-, is⟩
  · exact same.symm
  · obtain ⟨before, name, introducer, token, behind, are, recorded, introduces, rfl⟩ :=
      describes.exists_alias member' aliased'
    have among : token ∈ Token.list fresh.text := by simp [are]
    rw [Text.stripQuotes_stripQuotes] at is
    rw [unique token among is] at are
    exact absurd ⟨before, name, introducer, behind, are, recorded, introduces⟩ unaliased

/-- The tables are the same where the literals have the same value up to quotes. -/
theorem Parallel.tables_eq_of_content (same : stripQuotes literal.content = stripQuotes literal'.content)
    {query query' : Query} {dialect : Dialect} (describes : query.Describes dialect literal.text s)
    (describes' : query'.Describes dialect literal'.text s')
    (parallel : Parallel (.reworded literal literal') s s') : s'.tables = s.tables := by
  refine parallel.tables_eq fun table member table' member' given aliased given' aliased' alike => ?_
  rcases alike with alike | ⟨here, there⟩
  · exact alike.symm
  · calc given' = stripQuotes given' := (stripQuotes_alias describes' table' member' given' aliased').symm
      _ = stripQuotes literal.content := there.trans same.symm
      _ = stripQuotes given := here.symm
      _ = given := stripQuotes_alias describes table member given aliased

/-- Texts with another literal are analysed to the same error or to parallel statements. -/
theorem ofText_parallel_reworded {dialect : Dialect} (plain : dialect.IsPlain) (free : literal.IsFree)
    (stars : (stripQuotes literal.content = "*" ↔ stripQuotes literal'.content = "*") ∨
      ¬ literal.BeginsItem dialect) :
    SameOutcome (ParseError.Alike (.reworded literal literal')) (Parallel (.reworded literal literal'))
      (ofText dialect literal.text) (ofText dialect literal'.text) :=
  ofText_parallel (Cursor.like_reworded free) fun starts =>
    StringLiteral.sameFront plain.itemWord stars starts

/-- The tables are those of a text with a third literal, unless the literal is the alias of a table. -/
theorem exists_tables_of_fresh {dialect : Dialect} (plain : dialect.IsPlain) {fresh : StringLiteral front back}
    (unique : ∀ token ∈ Token.list fresh.text,
      stripQuotes token.lexeme = stripQuotes fresh.content → token = fresh.token)
    (accepted : ofText dialect literal.text = .ok s) (free : literal.IsFree)
    (stars : (stripQuotes literal.content = "*" ↔ stripQuotes fresh.content = "*") ∨
      ¬ literal.BeginsItem dialect) :
    ∃ statement, ofText dialect fresh.text = .ok statement ∧
      Parallel (.reworded literal fresh) s statement ∧
        (¬ fresh.IsTableAlias statement → statement.tables = s.tables) := by
  have outcome := ofText_parallel_reworded plain free stars
  rw [accepted] at outcome
  generalize acceptedFresh : ofText dialect fresh.text = answer at outcome
  cases outcome with
  | ok parallel =>
    obtain ⟨query, describes⟩ := exists_query plain acceptedFresh
    exact ⟨_, rfl, parallel, fun unaliased => parallel.tables_eq_fresh unique describes unaliased⟩

/-- **Contents of strings are data.** Let two texts differ in the content of one string literal only,
before which no point stands; and let both contents or none be a star without quotes, unless no item
begins with the literal in either text. Then both are rejected with the same error at the token of the
same number, or both accepted, with the same kinds of items, the same row limit, number of placeholders
and names of tables, and the same keys up to their aliases. The aliases of the tables are the same
unless the literal is one of them. -/
theorem ofText_reworded {dialect : Dialect} (shipped : dialect ∈ Dialect.shipped)
    (literal literal' : StringLiteral front back) (free : literal.IsFree)
    (stars : (stripQuotes literal.content = "*" ↔ stripQuotes literal'.content = "*") ∨
      (¬ literal.BeginsItem dialect ∧ ¬ literal'.BeginsItem dialect)) :
    SameOutcome (ParseError.Alike (.reworded literal literal')) (Reworded literal literal')
      (ofText dialect literal.text) (ofText dialect literal'.text) := by
  have plain := Dialect.isPlain_of_shipped shipped
  have outcome := @ofText_parallel_reworded _ _ literal literal' _ plain free
    (stars.imp_right And.left)
  generalize accepted : ofText dialect literal.text = answer at outcome ⊢
  generalize accepted' : ofText dialect literal'.text = answer' at outcome ⊢
  cases outcome with
  | error alike => exact .error alike
  | @ok s s' parallel =>
    refine .ok ⟨parallel.containsStar, parallel.items, parallel.names_eq, fun unaliased => ?_,
      parallel.limit, parallel.parameters, parallel.orderBy, parallel.groupBy⟩
    by_cases same : stripQuotes literal.content = stripQuotes literal'.content
    · obtain ⟨query, describes⟩ := exists_query plain accepted
      obtain ⟨query', describes'⟩ := exists_query plain accepted'
      exact parallel.tables_eq_of_content same describes describes'
    · -- Both have the tables of a third text, in which no other token has the value of the literal.
      obtain ⟨fresh, noStar, unique⟩ := literal.exists_fresh
      have none : (stripQuotes literal.content ≠ "*" ∧ stripQuotes literal'.content ≠ "*") ∨
          (¬ literal.BeginsItem dialect ∧ ¬ literal'.BeginsItem dialect) := by
        refine stars.imp_left fun both => ⟨fun star => ?_, fun star => ?_⟩
        · exact same (star.trans (both.mp star).symm)
        · exact same ((both.mpr star).trans star.symm)
      obtain ⟨third, acceptedFresh, first, tables⟩ := exists_tables_of_fresh plain unique accepted free
        (none.imp (fun none => iff_of_false none.1 noStar) And.left)
      obtain ⟨_, is, -, tables'⟩ := exists_tables_of_fresh plain unique accepted' (free.moved literal')
        (none.imp (fun none => iff_of_false none.2 noStar) And.right)
      obtain rfl := Except.ok.inj (acceptedFresh.symm.trans is)
      have unaliasedFresh := mt first.isTableAlias unaliased
      exact (tables' unaliasedFresh).symm.trans (tables unaliasedFresh)

/-- A star in quotes, and a text that ends the quotes and begins another condition, both in a
condition. -/
theorem ofText_reworded_of_condition :
    let literal : StringLiteral "SELECT a FROM t x WHERE x.c = " " AND t.d > ? ORDER BY t.a LIMIT 3" :=
      ⟨"*", "'*'", by decide +kernel⟩
    let literal' : StringLiteral "SELECT a FROM t x WHERE x.c = " " AND t.d > ? ORDER BY t.a LIMIT 3" :=
      ⟨"' OR t.c = '", "''' OR t.c = '''", by decide +kernel⟩
    (Dialect.mysql ∈ Dialect.shipped ∧ literal.IsFree ∧ ¬ literal.BeginsItem .mysql ∧
      ¬ literal'.BeginsItem .mysql) ∧
      ∃ statement other, ofText .mysql literal.text = .ok statement ∧
        ofText .mysql literal'.text = .ok other ∧ Reworded literal literal' statement other ∧
          statement.tables = [⟨"t", some "x"⟩] ∧ other.tables = [⟨"t", some "x"⟩] := by
  intro literal literal'
  have shipped : Dialect.mysql ∈ Dialect.shipped := by simp [Dialect.shipped]
  have plain := Dialect.isPlain_of_shipped shipped
  let statement (first second : Nat) : Statement :=
    { items := [.plain "a" none]
      tables := [⟨"t", some "x"⟩]
      orderBy := [.column ⟨some "t", "a", .ascending, some "ORDER_BY_DERIVED_0"⟩]
      projectionEnd := 9
      parameters := 1
      limit := some ⟨none, some (.literal 3)⟩
      edits := [.tableName 14 "t", .tableName first "t", .tableName second "t",
        .projection 9 ["t.a AS ORDER_BY_DERIVED_0"]] }
  obtain ⟨free, accepted, accepted'⟩ : literal.IsFree ∧
      ofText .mysql literal.text = .ok (statement 38 55) ∧
      ofText .mysql literal'.text = .ok (statement 51 68) := by
    decide +kernel
  have apart := StringLiteral.not_beginsItem plain accepted (by decide)
  have apart' := StringLiteral.not_beginsItem plain accepted' (by decide)
  have outcome := ofText_reworded shipped literal literal' free (.inr ⟨apart, apart'⟩)
  rw [accepted, accepted'] at outcome
  cases outcome with
  | ok reworded => exact ⟨⟨shipped, free, apart, apart'⟩, _, _, accepted, accepted', reworded, rfl, rfl⟩

/-- A star in quotes that begins an item is the star itself, and another text there is a string. -/
theorem quoted_star_is_star :
    let literal : StringLiteral "SELECT " " FROM t" := ⟨"*", "'*'", by decide +kernel⟩
    let literal' : StringLiteral "SELECT " " FROM t" := ⟨"a", "'a'", by decide +kernel⟩
    (literal.IsFree ∧ literal'.IsFree) ∧
      ofText .generic literal.text = .ok
        { items := [.star none]
          tables := [⟨"t", none⟩]
          containsStar := true
          projectionEnd := 11
          edits := [.tableName 16 "t"] } ∧
      ofText .generic literal'.text = .ok
        { items := [.plain "a" none]
          tables := [⟨"t", none⟩]
          projectionEnd := 11
          edits := [.tableName 16 "t"] } := by
  decide +kernel

end Statement

end SelectRouting
