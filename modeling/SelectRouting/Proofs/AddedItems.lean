import SelectRouting.Proofs.InsertedTokens
import SelectRouting.Proofs.PlainItems

/-!
# The added columns as items

A column that is added is read as one item under its alias, when the name of a key is none that ends
an item or cannot begin one (`Column.IsItem`). So the columns that are put behind a projection list
are read as the items that follow its own (`AddedColumn.AllPlaced.itemRounds`).
-/

namespace SelectRouting

/-- What a span covers is some text only if the span is not empty. -/
theorem Span.start_lt_stop {span : Span} {text : String} (some : span.slice text ≠ "") :
    span.start < span.stop := by
  refine Nat.not_le.mp fun empty => some ?_
  unfold slice Text.slice?
  rw [Nat.sub_eq_zero_of_le empty]
  by_cases least : span.start ≤ span.stop
  · rw [if_pos least]
    cases Text.splitAt? span.start text.toList with
    | none => rfl
    | some parts =>
      obtain ⟨_, behind⟩ := parts
      cases behind <;> rfl
  · rw [if_neg least]

theorem Token.frontKind_of_content {tokens others : List Token}
    (same : tokens.map content = others.map content) : frontKind tokens = frontKind others := by
  cases others with
  | nil => rw [List.map_eq_nil_iff.mp same]
  | cons other others =>
    obtain ⟨token, _, rfl, is, _⟩ := List.map_eq_cons_iff.mp same
    exact kind_eq_of_content is

namespace Text
open Token

theorem IsWord.isQuote_eq_false {word : String} (isWord : IsWord word) :
    ∀ c ∈ word.toList, isQuote c = false := by
  obtain ⟨first, tail, chars, start, more⟩ := isWord
  intro c member
  rw [chars] at member
  rcases List.mem_cons.mp member with rfl | member
  · exact isQuote_of_isWordCharacter (isWordCharacter_of_isStart start)
  · exact isQuote_of_isWordCharacter (more c member)

theorem IsWord.ne_star {word : String} (isWord : IsWord word) : stripQuotes word ≠ "*" := by
  rw [stripQuotes_eq_iff.mpr isWord.isQuote_eq_false]
  rintro rfl
  revert isWord
  decide

end Text

namespace Column
open Token Text

theorem IsPlain.stripQuotes_text {column : Column} (plain : column.IsPlain) :
    stripQuotes column.text = column.text := by
  refine stripQuotes_eq_iff.mpr fun c member => ?_
  obtain ⟨owner, name⟩ := column
  cases owner with
  | none => exact plain.name.isQuote_eq_false c member
  | some owner =>
    have among : c ∈ owner.toList ∨ c = '.' ∨ c ∈ name.toList := by
      simpa [text, or_assoc] using member
    rcases among with inOwner | rfl | inName
    · exact (plain.owner owner rfl).isQuote_eq_false c inOwner
    · rfl
    · exact plain.name.isQuote_eq_false c inName

/-- A column begins as a word does. -/
theorem IsPlain.exists_start {column : Column} (plain : column.IsPlain) :
    ∃ c tail, column.text.toList = c :: tail ∧ (isAlphabetic c || c == '_') = true := by
  obtain ⟨owner, name⟩ := column
  cases owner with
  | none =>
    obtain ⟨c, tail, chars, start, _⟩ := plain.name
    exact ⟨c, tail, chars, start⟩
  | some owner =>
    obtain ⟨c, tail, chars, start, _⟩ := plain.owner owner rfl
    exact ⟨c, tail ++ '.' :: name.toList, by simp [text, chars], start⟩

theorem IsPlain.text_ne_empty {column : Column} (plain : column.IsPlain) : column.text ≠ "" := by
  obtain ⟨c, tail, chars, _⟩ := plain.exists_start
  intro empty
  rw [empty] at chars
  cases chars

theorem tokens_ne_nil (column : Column) : column.tokens ≠ [] := by
  unfold tokens
  split <;> simp

end Column

namespace AnalysisStep
open Scan Step Cursor Analysis

/-- An item goes on with a token of this kind, and no parenthesis opens or closes there. -/
def goesOn : TokenKind → Bool
  | .symbol .leftParen | .symbol .rightParen | .symbol .comma | .symbol .semicolon => false
  | .endOfInput => false
  | .keyword word => word != .EXISTS && !closingKeywords.contains word
  | _ => true

/-- An item goes on with tokens of such kinds. -/
theorem GoesOn.of_goesOn {tokens : List Token} (goes : ∀ token ∈ tokens, goesOn token.kind = true) :
    GoesOn 0 tokens := by
  have other {kind : TokenKind} (ends : goesOn kind = false) : ∀ token ∈ tokens, token.kind ≠ kind := by
    rintro token member rfl
    rw [goes token member] at ends
    cases ends
  have outside {token : Token} (member : token ∈ Token.outside 0 tokens) : token ∈ tokens :=
    (Token.outside_sublist 0 tokens).subset member
  have balanced : Token.Balanced tokens := by
    clear outside other
    induction tokens with
    | nil => exact .nil
    | cons token tokens ih =>
      obtain ⟨here, later⟩ := List.forall_mem_cons.mp goes
      have noMark {kind : TokenKind} (ends : goesOn kind = false) : token.kind ≠ kind := by
        rintro rfl
        rw [here] at ends
        cases ends
      exact .other (noMark rfl) (noMark rfl) (noMark rfl) (ih later)
  refine ⟨balanced, ⟨Token.subqueries_eq_nil (other rfl), fun token member word closing => ?_⟩,
    fun token member => other rfl token (outside member), other rfl, other rfl⟩
  refine other ?_ token (outside member)
  simp [goesOn, closing]

end AnalysisStep

/-- The column can begin an item, and the item does not end within it. -/
structure Column.IsItem (column : Column) : Prop extends IsPlain column where
  starts : AnalysisStep.startsItem (Token.frontKind column.tokens) = true
  goes : ∀ token ∈ column.tokens, AnalysisStep.goesOn token.kind = true

namespace AddedColumn
open Token Text

/-- The item that the column becomes at the given position. -/
def item (position : Nat) : AddedColumn → Item
  | part column =>
    .aggregation
      { function := column.function
        argument := column.argument
        aliasName := some column.aliasName
        position }
  | key column aliasName => .plain column.text (some aliasName)

/-- The items that columns become, the first of them at the given position. -/
def items (position : Nat) : List AddedColumn → List Item
  | [] => []
  | column :: columns => column.item position :: items (position + 1) columns

theorem isStar_item (position : Nat) (column : AddedColumn) :
    (column.item position).isStar = false := by
  cases column <;> rfl

/-- The tokens are those of the column with its alias, and its argument or its name is quoted from
the text as it was. -/
inductive Placed (text : String) : AddedColumn → List Token → Prop where
  | part {column : DerivedColumn} {function : Token} {group named : List Token} :
      function.content = (ofWord column.function.spelling).content →
        group.map content = (list column.argument).map content →
        (cover group).slice text = column.argument →
        named.map content = [ofWord "AS", ofWord column.aliasName].map content →
        Placed text (part column) (function :: group ++ named)
  | key {column : Column} {aliasName : String} {written named : List Token} :
      written.map content = column.tokens.map content → (cover written).slice text = column.text →
        named.map content = [ofWord "AS", ofWord aliasName].map content →
        Placed text (key column aliasName) (written ++ named)

section Placed
variable {text : String} {added : AddedColumn} {tokens : List Token}

theorem Placed.content_eq (placed : Placed text added tokens) :
    tokens.map content = added.tokens.map content := by
  cases placed with
  | part function group _ named => simp [AddedColumn.tokens, function, group, named]
  | key written _ named => simp [AddedColumn.tokens, written, named]

/-- The tokens of a column that can be read back are valid. -/
theorem IsReadable.valid (readable : added.IsReadable) :
    ∀ token ∈ added.tokens, ∀ error, token.kind ≠ .invalid error := by
  have word (word : String) (error : LexicalError) : (ofWord word).kind ≠ .invalid error := by
    change wordKind word ≠ _
    unfold wordKind
    split <;> simp
  cases readable with
  | @part column isGroup _ =>
    simp only [AddedColumn.tokens, List.cons_append, List.mem_cons, List.mem_append, List.not_mem_nil,
      or_false]
    rintro token (rfl | argument | rfl | rfl)
    · exact word _
    · exact isGroup.valid token argument
    · exact word _
    · exact word _
  | @key column aliasName _ _ =>
    obtain ⟨owner, name⟩ := column
    cases owner <;> simp [AddedColumn.tokens, Column.tokens, word]

end Placed

/-- The tokens are those of the columns, each behind a comma. -/
inductive AllPlaced (text : String) : List AddedColumn → List Token → Prop where
  | nil : AllPlaced text [] []
  | cons {column : AddedColumn} {columns : List AddedColumn} {mark : Token}
      {tokens rest : List Token} : mark.kind = .symbol .comma → Placed text column tokens →
        AllPlaced text columns rest → AllPlaced text (column :: columns) (mark :: tokens ++ rest)

end AddedColumn

namespace AnalysisStep
open Scan Step Cursor Analysis

section Item
variable {before : Analysis} {cursor : Cursor} {text aliasName : String} {position : Nat}
  {dialect : Dialect}

/-- An alias behind its word is passed wherever it stands. -/
theorem aliasName_of_content {before : Cursor} {named : List Token} (isWord : Text.IsWord aliasName)
    (same : named.map Token.content = [Token.ofWord "AS", Token.ofWord aliasName].map Token.content)
    (passes : Passes before named cursor) : before.kind = .keyword .AS ∧
      Yields Scan.aliasName before (some aliasName) cursor := by
  obtain ⟨word, rest, rfl, isAs, same⟩ := List.map_eq_cons_iff.mp same
  obtain ⟨token, rest, rfl, isName, same⟩ := List.map_eq_cons_iff.mp same
  obtain rfl := List.map_eq_nil_iff.mp same
  have introduces : word.kind = .keyword .AS := by
    rw [Token.kind_eq_of_content isAs]
    decide
  obtain ⟨noSymbol, inside⟩ := TokenKind.isWritten_iff.mp (Token.isWritten_ofWord aliasName)
  have kind := Token.kind_eq_of_content isName
  have lexeme : token.lexeme = aliasName := congrArg Prod.snd isName
  have are : AliasTokens [word, token] (some (Text.stripQuotes token.lexeme)) cursor.kind :=
    .introduced introduces (by rw [kind, noSymbol]) (by rwa [kind])
  rw [lexeme, Text.stripQuotes_eq_iff.mpr isWord.isQuote_eq_false] at are
  exact ⟨by rw [Cursor.kind, current_of_cons passes.rest, introduces], aliasName_answers are passes⟩

/-- A word is no star. -/
theorem no_star_of_word {before : Cursor} {word : String} {token : Token} (isWord : Text.IsWord word)
    (same : token.content = (Token.ofWord word).content) (current : before.current = token) :
    (before.at? (.symbol .star) || Text.stripQuotes before.lexeme == "*") = false := by
  have kind : before.kind ≠ .symbol .star := by
    rw [Cursor.kind, current, Token.kind_eq_of_content same]
    exact Token.kind_ofWord_ne word .star
  have lexeme : before.lexeme = word := by
    rw [Cursor.lexeme, current]
    exact congrArg Prod.snd same
  rw [Bool.or_eq_false_iff, lexeme]
  exact ⟨Bool.eq_false_iff.mpr (mt at?_symbol.mp kind), beq_eq_false_iff_ne.mpr isWord.ne_star⟩

/-- The name of a function is its keyword. -/
theorem kind_spelling (function : AggregateFunction) :
    (Token.ofWord function.spelling).kind.keyword?.bind AggregateFunction.ofKeyword? =
      some function := by
  cases function <;> decide

/-- A part of an average is read as a call. -/
theorem item_of_part (noWord : dialect.itemWord = none) {column : DerivedColumn} {function : Token}
    {group named : List Token} (isWord : Text.IsWord column.aliasName)
    (is : function.content = (Token.ofWord column.function.spelling).content)
    (isGroup : Token.IsGroup group) (inside : ∀ token ∈ group, token.kind ≠ .endOfInput)
    (quoted : (Token.cover group).slice before.cursor.text = column.argument)
    (same : named.map Token.content =
      [Token.ofWord "AS", Token.ofWord column.aliasName].map Token.content)
    (passes : Passes before.cursor (function :: group ++ named) cursor) :
    Yields (item dialect position) before ((AddedColumn.part column).item position)
      { before with cursor } := by
  obtain ⟨behind, first, rest⟩ := passes.split
  obtain ⟨_, one, grouped⟩ := first.uncons
  have kind := Token.kind_eq_of_content is
  obtain rfl := one.eq_advance (by rw [kind]; exact Token.kind_ofWord_ne _ _)
  have current := current_of_cons one.rest
  obtain ⟨introduces, aliased⟩ := aliasName_of_content isWord same rest
  have calls : aggregateAt? before.cursor = some column.function := by
    have opens : (before.cursor.peek 1).kind = .symbol .leftParen := by
      rw [kind_peek_one, one.rest, grouped.rest, List.singleton_append, List.tail_cons,
        Token.frontKind_append (Token.Closing.ne_nil isGroup), isGroup.frontKind]
    rw [aggregateAt?, opens, Cursor.kind, current, kind, kind_spelling]
    rfl
  have ends : atItemEnd behind = true := by
    unfold atItemEnd atTerminator
    rw [introduces]
    rfl
  have called := group_answers isGroup grouped inside
  rw [Cursor.source, one.text, quoted] at called
  exact (yields_item noWord).mpr
    (.call (no_star_of_word (AddedColumn.isWord_spelling _) is current) calls called ends
      (yields_scan.mpr ⟨cursor, aliased, rfl⟩))

/-- A column begins with a word, and a point stands behind its owner. -/
theorem exists_front {column : Column} {written : List Token} (plain : column.IsPlain)
    (is : written.map Token.content = column.tokens.map Token.content) :
    ∃ word token more, written = token :: more ∧ Text.IsWord word ∧
      token.content = (Token.ofWord word).content ∧
      (more = [] ∨ Token.frontKind more = .symbol .dot) := by
  obtain ⟨owner, name⟩ := column
  cases owner with
  | none =>
    obtain ⟨token, more, rfl, same, none⟩ := List.map_eq_cons_iff.mp is
    exact ⟨name, token, more, rfl, plain.name, same, .inl (List.map_eq_nil_iff.mp none)⟩
  | some owner =>
    obtain ⟨token, more, rfl, same, rest⟩ := List.map_eq_cons_iff.mp is
    obtain ⟨point, more, rfl, isPoint, _⟩ := List.map_eq_cons_iff.mp rest
    exact ⟨owner, token, _, rfl, plain.owner owner rfl, same, .inr (Token.kind_eq_of_content isPoint)⟩

/-- The last token of a column stands behind no value. -/
theorem behind_column {column : Column} {written front : List Token} {last : Token}
    (is : written.map Token.content = column.tokens.map Token.content)
    (split : written = front ++ [last]) :
    (front.getLast?.map fun token => aliasMayFollow token.kind).getD false = false := by
  subst split
  obtain ⟨owner, name⟩ := column
  cases owner with
  | none =>
    have length := congrArg List.length is
    obtain rfl : front = [] := by simpa [Column.tokens] using length
    rfl
  | some owner =>
    obtain ⟨token, more, rest, _, same⟩ := List.map_eq_cons_iff.mp is
    obtain ⟨point, more, rfl, isPoint, same⟩ := List.map_eq_cons_iff.mp same
    obtain ⟨name, more, rfl, _, none⟩ := List.map_eq_cons_iff.mp same
    obtain rfl := List.map_eq_nil_iff.mp none
    obtain ⟨rfl, _⟩ := List.append_inj' (show front ++ [last] = [token, point] ++ [name] from rest) rfl
    rw [List.getLast?_cons_cons, List.getLast?_singleton, Option.map_some, Option.getD_some,
      Token.kind_eq_of_content isPoint]
    rfl

/-- The column of a key is read as an expression. -/
theorem item_of_key (noWord : dialect.itemWord = none) {column : Column} {written named : List Token}
    (isItem : column.IsItem) (isWord : Text.IsWord aliasName)
    (is : written.map Token.content = column.tokens.map Token.content)
    (quoted : (Token.cover written).slice before.cursor.text = column.text)
    (same : named.map Token.content = [Token.ofWord "AS", Token.ofWord aliasName].map Token.content)
    (passes : Passes before.cursor (written ++ named) cursor) : ∃ after, after.cursor = cursor ∧
      Yields (item dialect position) before ((AddedColumn.key column aliasName).item position)
        after := by
  obtain ⟨behind, first, rest⟩ := passes.split
  obtain ⟨introduces, aliased⟩ := aliasName_of_content isWord same rest
  obtain ⟨word, token, more, rfl, begins, front, next⟩ := exists_front isItem.toIsPlain is
  obtain ⟨_, one, others⟩ := first.uncons
  have current := current_of_cons one.rest
  have kind : before.cursor.kind = Token.frontKind column.tokens := by
    rw [← first.frontKind (List.cons_ne_nil token more), Token.frontKind_of_content is]
  have noCall : aggregateAt? before.cursor = none := by
    have noGroup : (before.cursor.peek 1).kind = .keyword .AS ∨
        (before.cursor.peek 1).kind = .symbol .dot := by
      rw [kind_peek_one, one.rest, List.singleton_append, List.tail_cons, others.rest]
      rcases next with rfl | point
      · exact .inl ((kind_eq_frontKind behind).symm.trans introduces)
      · refine .inr ?_
        rw [Token.frontKind_append (by rintro rfl; simp at point), point]
    unfold aggregateAt?
    rcases noGroup with is | is <;> rw [is] <;> rfl
  have ends : atTerminator behind = true := by
    unfold atTerminator
    rw [introduces]
    rfl
  have goes : ∀ other ∈ token :: more, goesOn other.kind = true := by
    intro other member
    have among : other.content ∈ (token :: more).map Token.content := List.mem_map_of_mem member
    rw [is] at among
    obtain ⟨own, inside, same⟩ := List.mem_map.mp among
    rw [← Token.kind_eq_of_content same]
    exact isItem.goes own inside
  have some := List.cons_ne_nil token more
  have covered := @Token.cover_append [] _ some before.cursor.start
    (max before.cursor.previous.stop before.cursor.start) (@Moves.start_head? _ _ _ [] (by
      rw [List.append_nil]
      exact first.toMoves))
  rw [List.nil_append] at covered
  have covers := Span.start_lt_stop (quoted ▸ isItem.text_ne_empty)
  rw [covered] at covers
  obtain ⟨after, stands, answers⟩ := @plainItem_of_goes before _ before.cursor.start false behind cursor _
    (.of_goesOn goes) some first ends (fun _ _ split _ => behind_column is split) covers aliased
  rw [← covered, Cursor.source, show cursor.text = before.cursor.text from passes.text, quoted,
    isItem.stripQuotes_text] at answers
  exact ⟨after, stands, (yields_item noWord).mpr (.text (no_star_of_word begins front current) noCall
    (by rw [kind]; exact isItem.starts) answers)⟩

end Item

end AnalysisStep

namespace AddedColumn
open Token Text AnalysisStep Step Cursor

section Items
variable {text : String} {added : AddedColumn} {tokens : List Token} {dialect : Dialect}
  {position : Nat} {cursor : Cursor}

/-- A column is read as its item. -/
theorem Placed.item_answers (noWord : dialect.itemWord = none) (readable : added.IsReadable)
    (isItem : ∀ column aliasName, added = .key column aliasName → column.IsItem) {before : Analysis}
    (same : before.cursor.text = text) (placed : Placed text added tokens)
    (passes : Passes before.cursor tokens cursor) : ∃ after, after.cursor = cursor ∧
      Yields (AnalysisStep.item dialect position) before (added.item position) after := by
  subst same
  cases placed with
  | @part column function group named is same quoted aliased =>
    cases readable with
    | part isGroup isWord =>
      have inside : ∀ token ∈ group, token.kind ≠ .endOfInput := by
        intro token member
        have among : token.content ∈ group.map content := List.mem_map_of_mem member
        rw [same] at among
        obtain ⟨other, lexed, is⟩ := List.mem_map.mp among
        rw [← kind_eq_of_content is]
        exact (areLexed_list _ other lexed).kind_ne_endOfInput
      exact ⟨_, rfl, item_of_part noWord isWord is (isGroup.isGroup.of_content same.symm) inside quoted
        aliased passes⟩
  | @key column aliasName written named same quoted aliased =>
    cases readable with
    | key _ isWord =>
      exact item_of_key noWord (isItem column aliasName rfl) isWord same quoted aliased passes

theorem AllPlaced.valid {columns : List AddedColumn} (placed : AllPlaced text columns tokens)
    (readable : ∀ column ∈ columns, column.IsReadable) :
    ∀ token ∈ tokens, ∀ error, token.kind ≠ .invalid error := by
  induction placed with
  | nil => simp
  | cons is first _ ih =>
    have here := valid_of_content (readable _ List.mem_cons_self).valid first.content_eq
    have later := ih fun column member => readable column (List.mem_cons_of_mem _ member)
    intro token member
    rw [List.cons_append, List.mem_cons, List.mem_append] at member
    rcases member with rfl | own | others
    · simp [is]
    · exact here token own
    · exact later token others

theorem AllPlaced.frontKind {columns : List AddedColumn} (placed : AllPlaced text columns tokens)
    (some : columns ≠ []) (more : List Token) :
    Token.frontKind (tokens ++ more) = .symbol .comma := by
  cases placed with
  | nil => exact absurd rfl some
  | cons is => exact is

/-- Columns behind a projection list are read as the items that follow its own. -/
theorem AllPlaced.itemRounds (noWord : dialect.itemWord = none) {columns : List AddedColumn}
    (placed : AllPlaced text columns tokens) (readable : ∀ column ∈ columns, column.IsReadable)
    (isItem : ∀ column aliasName, key column aliasName ∈ columns → column.IsItem)
    (some : columns ≠ []) {before : Analysis} (same : before.cursor.text = text)
    (passes : Passes before.cursor tokens cursor) (ends : cursor.kind ≠ .symbol .comma) :
    ∃ (last : Analysis) (edits : List Edit), last.cursor = cursor ∧
      Rounds (itemRound dialect) position { before with cursor := before.cursor.advance } () last ∧
      last.statement =
        { before.statement with items := before.statement.items ++ items position columns, edits } := by
  induction placed generalizing position before with
  | nil => exact absurd rfl some
  | @cons column columns mark tokens rest is first placed ih =>
    rw [List.cons_append] at passes
    obtain ⟨_, one, others⟩ := passes.uncons
    obtain rfl := one.eq_advance (by simp [is])
    obtain ⟨middle, here, later⟩ := others.split
    obtain ⟨between, rfl, answers⟩ : ∃ between, between.cursor = middle ∧
        Yields (AnalysisStep.item dialect position)
          { before with cursor := before.cursor.advance } (column.item position) between :=
      first.item_answers noWord (readable column List.mem_cons_self)
        (fun key aliasName equal => isItem key aliasName (equal ▸ List.mem_cons_self))
        (one.text.trans same) here
    obtain ⟨edits, kept⟩ : ∃ edits, between.statement = { before.statement with edits } :=
      (item_keeps (P := fun s => ∃ edits, s = { before.statement with edits })
        (fun _ edit known => by obtain ⟨edits, rfl⟩ := known; exact ⟨_, rfl⟩) noWord
        position).of_yields answers ⟨_, rfl⟩
    have added : (between.add (column.item position)).statement = { before.statement with
        items := before.statement.items ++ [column.item position], edits } := by
      rw [Analysis.add, kept, isStar_item, Bool.or_false]
    cases placed with
    | nil =>
      obtain rfl := later.unique (.refl _)
      exact ⟨between.add _, edits, rfl,
        .done (yields_itemRound.mpr ⟨_, between, answers, .inl ⟨ends, rfl, rfl⟩⟩), added⟩
    | @cons second columns mark tokens rest isComma _ _ =>
      have kind : between.cursor.kind = .symbol .comma := by
        rw [kind_eq_frontKind, later.rest]
        exact isComma
      obtain ⟨last, edits, stands, ran, found⟩ :=
        @ih (position + 1) (fun column member => readable column (List.mem_cons_of_mem _ member))
          (fun column aliasName member => isItem column aliasName (List.mem_cons_of_mem _ member))
          (by simp) (between.add (column.item position)) (here.text.trans (one.text.trans same)) later
      refine ⟨last, edits, stands, .next (yields_itemRound.mpr ⟨_, between, answers,
        .inr ⟨kind, rfl, rfl⟩⟩) ran, ?_⟩
      rw [found, added, List.append_assoc]
      rfl

end Items

section Spelled
variable {text : String} {before more : List Char}

/-- What is quoted of a text that begins with a token, from there to its last token, is all of it. -/
theorem slice_of_spells {front : List Char} {tokens : List Token} {c : Char} {tail : List Char}
    (split : text.toList = before ++ (front ++ more)) (spells : Spells more (width before) front tokens)
    (some : tokens ≠ []) (begins : front = c :: tail)
    (noTrivia : ∀ cs, Trivia.between.length (c :: cs) = 0) :
    (cover tokens).slice text = String.ofList front := by
  obtain ⟨token, rest, rfl⟩ := List.exists_cons_of_ne_nil some
  refine spells.cover_slice split (spells.start_eq ?_)
  rw [begins]
  exact noTrivia _

/-- A column that can be read back is placed wherever its text is put before a break. -/
theorem IsReadable.exists_placed {added : AddedColumn} (readable : added.IsReadable)
    (split : text.toList = before ++ (added.text.toList ++ more))
    (breaks : ∀ d ∈ more.head?, isBreak d = true) :
    ∃ tokens, Spells more (width before) added.text.toList tokens ∧ Placed text added tokens := by
  have blank (cs : List Char) : ∀ d ∈ (' ' :: cs).head?, isBreak d = true := by simp; decide
  cases readable with
  | @part column isGroup isWord =>
    have stands := Stands.aliasWords isWord
    rw [AddedColumn.text, toList_aliased, DerivedColumn.expression, String.toList_append] at split ⊢
    generalize "AS".toList ++ ' ' :: column.aliasName.toList = words at split stands ⊢
    obtain ⟨tail, opens⟩ : ∃ tail, column.argument.toList = '(' :: tail :=
      List.head?_eq_some_iff.mp isGroup.opens
    obtain ⟨named, aliased, sameAlias⟩ := stands.spells
      (width before + width (column.function.spelling.toList ++ column.argument.toList)) breaks
    obtain ⟨group, argument, same⟩ := isGroup.stands.spells
      (width (before ++ column.function.spelling.toList)) (blank (words ++ more))
    have opening : ∀ d ∈ (column.argument.toList ++ ' ' :: (words ++ more)).head?, isBreak d = true := by
      rw [opens]
      simp
      decide
    obtain ⟨front, word, sameWord⟩ :=
      (Stands.word (isWord_spelling column.function)).spells (width before) opening
    obtain ⟨function, none, rfl, is, empty⟩ := List.map_eq_cons_iff.mp sameWord
    obtain rfl := List.map_eq_nil_iff.mp empty
    have some : group ≠ [] := by
      rintro rfl
      exact Closing.ne_nil isGroup.isGroup (List.map_eq_nil_iff.mp same.symm)
    have quoted := slice_of_spells (by simpa using split) argument some opens
      fun cs => noTrivia_iff.mpr ⟨by decide, nofun, nofun⟩
    rw [width_append] at argument
    exact ⟨function :: group ++ named, (word.append argument).append aliased,
      .part is same (by rw [quoted, String.ofList_toList]) sameAlias⟩
  | @key column aliasName plain isWord =>
    have stands := Stands.aliasWords isWord
    rw [AddedColumn.text, toList_aliased] at split ⊢
    generalize "AS".toList ++ ' ' :: aliasName.toList = words at split stands ⊢
    obtain ⟨c, tail, begins, start⟩ := plain.exists_start
    obtain ⟨named, aliased, sameAlias⟩ :=
      stands.spells (width before + width column.text.toList) breaks
    obtain ⟨written, spells, same⟩ := plain.stands.spells (width before) (blank (words ++ more))
    have some : written ≠ [] := by
      rintro rfl
      exact column.tokens_ne_nil (List.map_eq_nil_iff.mp same.symm)
    have quoted := slice_of_spells (by simpa using split) spells some begins (noTrivia_of_isStart start)
    exact ⟨written ++ named, spells.append aliased,
      .key same (by rw [quoted, String.ofList_toList]) sameAlias⟩

/-- Columns that can be read back are placed wherever their texts are put before a break. -/
theorem exists_allPlaced {columns : List AddedColumn}
    (readable : ∀ column ∈ columns, column.IsReadable)
    (split : text.toList = before ++
      (((columns.map AddedColumn.text).flatMap fun column => ',' :: ' ' :: column.toList) ++ more))
    (breaks : ∀ d ∈ more.head?, isBreak d = true) : ∃ inserted, Spells more (width before)
        ((columns.map AddedColumn.text).flatMap fun column => ',' :: ' ' :: column.toList) inserted ∧
      AllPlaced text columns inserted := by
  induction columns generalizing before with
  | nil => exact ⟨[], .nil, .nil⟩
  | cons column columns ih =>
    rw [List.map_cons, List.flatMap_cons] at split ⊢
    obtain ⟨inserted, later, placed⟩ := @ih (before ++ ',' :: ' ' :: column.text.toList)
      (fun column member => readable column (List.mem_cons_of_mem _ member)) (by simpa using split)
    have breaksFirst : ∀ d ∈ (((columns.map AddedColumn.text).flatMap
        fun column => ',' :: ' ' :: column.toList) ++ more).head?, isBreak d = true := by
      cases columns with
      | nil => exact breaks
      | cons => simp; decide
    obtain ⟨tokens, spells, first⟩ :=
      @IsReadable.exists_placed text (before ++ [',', ' ']) _ column
        (readable column List.mem_cons_self) (by simpa using split) breaksFirst
    have some : tokens ≠ [] := by
      rintro rfl
      exact column.tokens_ne_nil (List.map_eq_nil_iff.mp first.content_eq.symm)
    have behind : width (before ++ [',', ' ']) = width before + width [','] + ' '.utf8Size := by
      rw [width_append, Nat.add_assoc]
      rfl
    rw [behind] at spells
    have item := @Spells.token _ _ _ ',' [] _ _ (read_comma _).1 (read_comma _).2
      (spells.blank (by decide) some)
    rw [width_append] at later
    exact ⟨_, item.append later, .cons rfl first placed⟩

end Spelled

end AddedColumn

end SelectRouting
