import SelectRouting.Proofs.CallArguments

/-!
# Tokens of the added columns

Each column that is added is read as its own tokens, behind a comma, in whichever query it is put in
(`AddedColumn.stands`). A key whose name needs quotes is another matter: the quotes are not added.
-/

namespace SelectRouting

namespace Text

/-- A number behind a word goes on with it. -/
theorem IsWord.numbered {stem : String} (isWord : IsWord stem) (number : Nat) :
    IsWord (stem ++ toString number) := by
  obtain ⟨c, tail, chars, start, word⟩ := isWord
  refine ⟨c, tail ++ (toString number).toList, by rw [String.toList_append, chars, List.cons_append],
    start, fun d member => ?_⟩
  rcases List.mem_append.mp member with old | digit
  · exact word d old
  · rw [Nat.toString_eq_repr, Nat.toList_repr] at digit
    exact Token.isWordCharacter_of_isDigit (Nat.isDigit_of_mem_toDigits (b := 10) (by decide) (by decide) digit)

end Text

namespace Token
open Text

/-- The token that a word is. -/
def ofWord (word : String) : Token :=
  ⟨wordKind word, 0, word⟩

theorem isWritten_ofWord (word : String) : (ofWord word).kind.isWritten = true := by
  change (wordKind word).isWritten = true
  unfold wordKind
  split <;> rfl

theorem kind_ofWord_ne (word : String) (mark : Symbol) : (ofWord word).kind ≠ .symbol mark := by
  intro is
  have written := isWritten_ofWord word
  rw [is] at written
  cases written

/-- The comma between two items. -/
def comma : Token :=
  ⟨.symbol .comma, 0, ","⟩

/-- An alias stands, with the word in front of it. -/
theorem Stands.aliasWords {aliasName : String} (isWord : IsWord aliasName) :
    Stands (' ' :: ("AS".toList ++ ' ' :: aliasName.toList)) [ofWord "AS", ofWord aliasName] := by
  have introducer : IsWord "AS" := by decide
  exact ((Stands.word introducer).append ((Stands.word isWord).blank (by simp)) (by simp; decide)
    (by simp)).blank (by simp)

theorem toList_aliased (expression aliasName : String) : (aliased expression aliasName).toList =
    expression.toList ++ ' ' :: ("AS".toList ++ ' ' :: aliasName.toList) := by
  simp [aliased]

/-- A column under an alias stands where the column does. -/
theorem Stands.aliased {expression aliasName : String} {tokens : List Token}
    (stands : Stands expression.toList tokens) (isWord : IsWord aliasName) :
    Stands (aliased expression aliasName).toList (tokens ++ [ofWord "AS", ofWord aliasName]) := by
  rw [toList_aliased]
  exact stands.append (.aliasWords isWord) (by simp; decide) (by simp)

end Token

namespace Column
open Token Text

/-- The column needs no quotes. -/
structure IsPlain (column : Column) : Prop where
  owner : ∀ owner ∈ column.owner, IsWord owner
  name : IsWord column.name

/-- The tokens of a column. -/
def tokens (column : Column) : List Token :=
  match column.owner with
  | some owner => [ofWord owner, ⟨.symbol .dot, 0, "."⟩, ofWord column.name]
  | none => [ofWord column.name]

/-- A column that needs no quotes stands. -/
theorem IsPlain.stands {column : Column} (plain : column.IsPlain) :
    Stands column.text.toList column.tokens := by
  obtain ⟨owner, name⟩ := column
  cases owner with
  | none => exact .word plain.name
  | some owner =>
    have whole := Stands.owner (plain.owner owner rfl) (Stands.word plain.name)
    simpa [text, tokens, ofWord] using whole

end Column

namespace AddedColumn
open Token Text

/-- The tokens of the column and of its alias. -/
def tokens : AddedColumn → List Token
  | part column =>
    ofWord column.function.spelling :: list column.argument ++
      [ofWord "AS", ofWord column.aliasName]
  | key column aliasName => column.tokens ++ [ofWord "AS", ofWord aliasName]

/-- What is added is a call of a group, or a column that needs no quotes, under a word. -/
inductive IsReadable : AddedColumn → Prop where
  | part {column : DerivedColumn} : IsGroupText column.argument → IsWord column.aliasName →
      IsReadable (part column)
  | key {column : Column} {aliasName : String} : column.IsPlain → IsWord aliasName →
      IsReadable (key column aliasName)

/-- The name of a function is a word. -/
theorem isWord_spelling (function : AggregateFunction) : IsWord function.spelling := by
  cases function <;> decide

theorem IsReadable.stands {added : AddedColumn} (readable : added.IsReadable) :
    Stands added.text.toList added.tokens := by
  cases readable with
  | @part column group isWord =>
    have some : column.argument.toList ≠ [] := by
      intro empty
      have opens := group.opens
      rw [empty] at opens
      cases opens
    have call := (Stands.word (isWord_spelling column.function)).append group.stands
      (by rw [group.opens]; simp; decide) some
    rw [← String.toList_append] at call
    exact call.aliased isWord
  | key plain isWord => exact plain.stands.aliased isWord

/-- The tokens that an insertion of columns adds. -/
def insertedTokens (columns : List AddedColumn) : List Token :=
  columns.flatMap fun column => comma :: column.tokens

theorem toList_insertion (columns : List String) : (Edit.insertion columns).toList =
    (columns.flatMap fun column => ',' :: ' ' :: column.toList) ++ [' '] := by
  rw [Edit.insertion, String.toList_append, String.toList_join, List.flatMap_map]
  simp

theorem tokens_ne_nil (column : AddedColumn) : column.tokens ≠ [] := by
  cases column <;> simp [tokens]

/-- Columns that are put together with commas stand. -/
theorem stands {columns : List AddedColumn} (readable : ∀ column ∈ columns, column.IsReadable) :
    Stands ((columns.map text).flatMap fun column => ',' :: ' ' :: column.toList)
      (insertedTokens columns) := by
  induction columns with
  | nil => exact .nil
  | cons column columns ih =>
    have later := ih fun other member => readable other (List.mem_cons_of_mem _ member)
    have first : Stands (',' :: ' ' :: column.text.toList) (comma :: column.tokens) :=
      ((readable column List.mem_cons_self).stands.blank column.tokens_ne_nil).symbol read_comma
    cases columns with
    | nil => simpa [insertedTokens] using first
    | cons second columns =>
      have whole := first.append later (by simp; decide) (by simp)
      simpa [insertedTokens] using whole

/-- The text of an insertion is read as the columns that it adds. -/
theorem content_list_insertion {columns : List AddedColumn}
    (readable : ∀ column ∈ columns, column.IsReadable) :
    (Token.list (Edit.insertion (columns.map text))).map content =
      (insertedTokens columns).map content := by
  obtain ⟨inserted, spells, same⟩ := @Stands.spells _ _ (stands readable) 0 [' '] (by simp; decide)
  rw [Token.list, toList_insertion, spells.listFrom_append, listFrom_blank (by decide), listFrom,
    List.append_nil, same]

end AddedColumn

namespace Statement
open Text

variable (statement : Statement)

/-- The parts of averages have words for aliases. -/
theorem isWord_of_part {part : DerivedColumn} (added : part ∈ statement.addedParts) :
    IsWord part.aliasName := by
  have count : IsWord "AVG_DERIVED_COUNT_" := by decide
  have sum : IsWord "AVG_DERIVED_SUM_" := by decide
  obtain ⟨call, number, _, own⟩ := Item.exists_call_of_part (List.mem_of_mem_filter added)
  rcases Aggregation.part_cases own with rfl | rfl
  · exact count.numbered number
  · exact sum.numbered number

/-- The columns of keys have words for aliases. -/
theorem isWord_of_key {column : Column} {aliasName : String}
    (added : .key column aliasName ∈ statement.addedKeys) : IsWord aliasName := by
  have order : IsWord "ORDER_BY_DERIVED_" := by decide
  have group : IsWord "GROUP_BY_DERIVED_" := by decide
  have keys {stem : String} (isWord : IsWord stem) (number : Nat) (columns : List Column)
      (member : .key column aliasName ∈ AddedColumn.numbered stem number columns) :
      IsWord aliasName := by
    induction columns generalizing number with
    | nil => cases member
    | cons first columns ih =>
      rw [AddedColumn.numbered_cons] at member
      rcases List.mem_cons.mp member with same | later
      · cases same
        exact isWord.numbered number
      · exact ih _ later
  unfold addedKeys at added
  split at added
  · cases added
  · exact (List.mem_append.mp added).elim (keys order 0 _) (keys group 0 _)

end Statement

/-- The columns that are added can be read back when those of keys need no quotes. -/
theorem Query.Describes.isReadable {query : Query} {dialect : Dialect} {text : String}
    {statement : Statement} (describes : query.Describes dialect text statement)
    (plain : dialect.IsPlain)
    (valid : ∀ token ∈ Token.list text, ∀ error, token.kind ≠ .invalid error)
    (unquoted : ∀ column aliasName, .key column aliasName ∈ statement.addedKeys → column.IsPlain) :
    ∀ column ∈ statement.addedColumns, column.IsReadable := by
  intro column member
  cases column with
  | part part =>
    have added := Statement.part_mem_addedColumns.mp member
    exact .part (describes.isGroupText_of_part plain valid added) (statement.isWord_of_part added)
  | key column aliasName =>
    have added := Statement.key_mem_addedColumns.mp member
    exact .key (unquoted column aliasName added) (statement.isWord_of_key added)

end SelectRouting
