import SelectRouting.Proofs.CommaLists
import SelectRouting.Proofs.KeyExpressions

/-!
# Lists of keys

A part of the list behind `GROUP BY` or `ORDER BY` writes a key when it is a column, or in `ORDER BY`
a position, with a direction or without one (`Token.WritesColumn`, `Token.WritesOrder`). Whatever the
expressions in the list are, each part becomes its key or is noted as left out, in the order of the
text (`AnalysisStep.keys_listed`).
-/

namespace SelectRouting

namespace Token

/-- The tokens are a dotted name and a direction, of which the last part but one is the owner of the
key. -/
inductive WritesColumn (aliases : String → Option String) : List Token → ColumnKey → Prop where
  | column {owners : List (Token × Token)} {last : Token} {directed : List Token}
      {direction : Direction} : Phrase.Dotted owners → last.kind.isWritten = true →
      Expr.startsColumn (frontKind (Phrase.joined owners ++ [last])) = true →
      Directs directed direction →
        WritesColumn aliases (Phrase.joined owners ++ [last] ++ directed)
          (.ofName aliases ((owners.getLast?.map Prod.fst).map .ofToken) (.ofToken last) direction)

/-- The tokens are a column, or a position that is not zero, and a direction. -/
inductive WritesOrder (aliases : String → Option String) : List Token → OrderKey → Prop where
  | column {tokens : List Token} {key : ColumnKey} : WritesColumn aliases tokens key →
      WritesOrder aliases tokens (.column key)
  | position {number : Token} {directed : List Token} {index : Nat} {direction : Direction} :
      number.kind = .integer (index + 1) → Directs directed direction →
        WritesOrder aliases (number :: directed) (.position (index + 1) direction)

/-- What becomes of a part of a list of keys: the key that it writes, or else the warning that its
expression is left out. -/
inductive BecomesKey {κ : Type} (writes : List Token → κ → Prop) (drop : String → Warning)
    (text : String) : List Token → κ ⊕ Warning → Prop where
  | key {part : List Token} {key : κ} : writes part key → BecomesKey writes drop text part (.inl key)
  | dropped {expression directed : List Token} {direction : Direction} :
      (∀ key, ¬ writes (expression ++ directed) key) → Directs directed direction →
        BecomesKey writes drop text (expression ++ directed)
          (.inr (drop ((cover expression).slice text)))

end Token

/-- The state with the warning, where nothing is found. -/
def Analysis.noting {κ : Type} (state : Analysis) (found : Option κ) (warning : Warning) : Analysis :=
  match found with
  | some _ => state
  | none => { state with warnings := state.warnings ++ [warning] }

namespace AnalysisStep
open Scan Step Cursor Analysis

variable {before after : Analysis}

section Items

/-- The edits of the owners are recorded, and nothing else. -/
theorem addOwnerEdits_cases {owners : List Name} {answer : PUnit}
    (answers : Yields (owners.forM addOwnerEdit) before answer after) :
    ∃ edits, after = { before with statement := { before.statement with edits } } := by
  induction owners generalizing before with
  | nil =>
    obtain ⟨_, rfl⟩ := yields_pure.mp answers
    exact ⟨_, rfl⟩
  | cons owner owners ih =>
    obtain ⟨_, between, first, rest⟩ := yields_bind.mp answers
    obtain ⟨edits, rfl⟩ := ih rest
    unfold addOwnerEdit at first
    obtain ⟨found, _, looked, added⟩ := yields_bind.mp first
    obtain ⟨_, rfl⟩ := yields_statement.mp looked
    rcases yields_ite.mp added with ⟨_, added⟩ | ⟨_, skipped⟩
    · obtain rfl := yields_change.mp added
      exact ⟨edits, rfl⟩
    · obtain ⟨_, rfl⟩ := yields_pure.mp skipped
      exact ⟨edits, rfl⟩

/-- An expression is read at the cursor, and the statement is changed by edits only. -/
theorem expressionWithEdits_cases {expr : Expr}
    (answers : Yields expressionWithEdits before expr after) :
    ∃ inner edits, Yields ExprStep.expression { cursor := before.cursor } expr inner ∧
      after = { before with cursor := inner.cursor, statement := { before.statement with edits } } := by
  obtain ⟨⟨shape, owners⟩, between, read, rest⟩ := yields_bind.mp answers
  obtain ⟨inner, ran, _, rfl⟩ := yields_reading.mp read
  obtain ⟨_, last, added, ended⟩ := yields_bind.mp rest
  obtain ⟨rfl, rfl⟩ := yields_pure.mp ended
  obtain ⟨edits, rfl⟩ := addOwnerEdits_cases added
  exact ⟨inner, edits, ran, rfl⟩

/-- A direction is passed. -/
theorem direction_cases {cursor behind : Cursor} {answer : Direction}
    (answers : Yields direction cursor answer behind) :
    ∃ directed, Token.Directs directed answer ∧ Moves cursor directed behind := by
  obtain ⟨descends, between, first, rest⟩ := yields_bind.mp answers
  rcases skipKeyword_cases first with ⟨rfl, token, is, passes⟩ | ⟨rfl, _, rfl⟩
  · obtain ⟨rfl, rfl⟩ := yields_pure.mp rest
    exact ⟨[token], .descending is, passes.toMoves⟩
  · rw [if_neg Bool.false_ne_true] at rest
    obtain ⟨_, last, second, rest⟩ := yields_bind.mp rest
    obtain ⟨rfl, rfl⟩ := yields_pure.mp rest
    rcases skipKeyword_cases second with ⟨_, token, is, passes⟩ | ⟨_, _, rfl⟩
    · exact ⟨[token], .ascending is, passes.toMoves⟩
    · exact ⟨[], .absent, .refl _⟩

/-- An expression and a direction are read. The expression alone decides whether they are a key, and
which. -/
structure ReadsKey (before : Analysis) (expression directed : List Token) (expr : Expr)
    (direction : Direction) (after : Analysis) : Prop where
  moves : Moves before.cursor (expression ++ directed) after.cursor
  balanced : Token.Balanced (expression ++ directed)
  directs : Token.Directs directed direction
  shape : (∃ span, expr = .other span) ∨ Token.WritesKey expression expr
  only : ∀ {written other : List Token} {shape : Expr} {way : Direction},
    Token.WritesKey written shape → Token.Directs other way →
      expression ++ directed = written ++ other → expr = shape ∧ direction = way
  statement : ∃ edits, after.statement = { before.statement with edits }
  warnings : after.warnings = before.warnings

/-- An item of a list of keys is an expression and a direction. -/
theorem keyItem_reads {expr : Expr} {direction : Direction} {text : String}
    (lexed : Token.AreLexed before.cursor.rest)
    (answers : Yields keyItem before (expr, direction, text) after) :
    ∃ expression directed, ReadsKey before expression directed expr direction after ∧
      text = (Token.cover expression).slice before.cursor.text := by
  unfold keyItem at answers
  rw [Step.yields_look_bind] at answers
  obtain ⟨_, between, first, rest⟩ := yields_bind.mp answers
  rw [Step.yields_look_bind] at rest
  obtain ⟨_, last, second, rest⟩ := yields_bind.mp rest
  obtain ⟨same, rfl⟩ := yields_pure.mp rest
  obtain ⟨rfl, rfl, rfl⟩ : expr = _ ∧ direction = _ ∧ text = _ := by simpa using same
  obtain ⟨inner, edits, ran, rfl⟩ := expressionWithEdits_cases first
  obtain ⟨behind, scanned, rfl⟩ := yields_scan.mp second
  obtain ⟨directed, directs, more⟩ := direction_cases scanned
  obtain ⟨phrases, reads⟩ := ExprStep.reads_expressionOf ran
  have some := Phrase.text_ne_nil reads.shapes.ne_nil
  refine ⟨Phrase.text phrases, directed, ⟨reads.moves.trans more, ?_, directs,
    ExprStep.writesKey_of_shapes reads.shapes reads.fit, ?_, ⟨edits, rfl⟩, rfl⟩, ?_⟩
  · rw [show before.cursor.rest = _ from reads.moves.rest] at lexed
    exact (reads.balanced lexed.left).append directs.balanced
  · intro written other shape way writes directsOther same
    obtain ⟨rfl, rfl⟩ :=
      ExprStep.expression_of_key ran reads.moves more.rest writes directsOther same
    exact ⟨rfl, directs.unique directsOther⟩
  · rw [reads.moves.cover some]
    exact congrArg (Span.slice _) reads.moves.text

/-- The key of a column is looked up in the statement. -/
theorem yields_columnKey {owner : Option Name} {name : Name} {direction : Direction}
    {key : ColumnKey} :
    Yields (columnKey owner name direction) before key after ↔
      key = .ofName before.statement.aliasOf? owner name direction ∧ after = before := by
  unfold columnKey
  simp only [yields_bind, yields_statement, yields_pure]
  constructor
  · rintro ⟨_, _, ⟨rfl, rfl⟩, rfl, rfl⟩
    exact ⟨rfl, rfl⟩
  · rintro ⟨rfl, rfl⟩
    exact ⟨_, _, ⟨rfl, rfl⟩, rfl, rfl⟩

end Items

section Outcomes
variable {κ : Type}

/-- An item of a list of keys is read: its part becomes a key or a warning, and of the statement
nothing but edits is changed. -/
structure ReadsItem (writes : (String → Option String) → List Token → κ → Prop)
    (drop : String → Warning) (before : Analysis) (part : List Token) (outcome : κ ⊕ Warning)
    (after : Analysis) : Prop where
  moves : Moves before.cursor part after.cursor
  balanced : Token.Balanced part
  becomes : Token.BecomesKey (writes before.statement.aliasOf?) drop before.cursor.text part outcome
  statement : ∃ edits, after.statement = { before.statement with edits }
  warnings : after.warnings = before.warnings ++ outcome.getRight?.toList

variable {expression directed : List Token} {expr : Expr} {direction : Direction}
  {aliases : String → Option String}

/-- Tokens are a column where they are read as one. -/
theorem ReadsKey.writesColumn_iff (reads : ReadsKey before expression directed expr direction after)
    (key : ColumnKey) :
    Token.WritesColumn aliases (expression ++ directed) key ↔
      expr.columnKey? aliases direction = some key := by
  constructor
  · intro writes
    generalize same : expression ++ directed = tokens at writes
    cases writes with
    | column dotted written starts directs =>
      obtain ⟨rfl, rfl⟩ := reads.only (.column dotted written starts) directs same
      exact Expr.columnKey?_column _ _ _ _
  · intro is
    rcases reads.shape with ⟨_, rfl⟩ | writes
    · cases is
    · cases writes with
      | number => cases is
      | column dotted written starts =>
        rw [Expr.columnKey?_column] at is
        obtain rfl := Option.some.inj is
        exact .column dotted written starts reads.directs

/-- Tokens are a key of `ORDER BY` where they are read as one. -/
theorem ReadsKey.writesOrder_iff (reads : ReadsKey before expression directed expr direction after)
    (key : OrderKey) :
    Token.WritesOrder aliases (expression ++ directed) key ↔
      expr.orderKey? aliases direction = some key := by
  constructor
  · intro writes
    generalize same : expression ++ directed = tokens at writes
    cases writes with
    | column writes =>
      cases writes with
      | column dotted written starts directs =>
        obtain ⟨rfl, rfl⟩ := reads.only (.column dotted written starts) directs same
        exact Expr.orderKey?_column _ _ _ _
    | position is directs =>
      obtain ⟨rfl, rfl⟩ := reads.only (.number is) directs same
      rfl
  · intro is
    unfold Expr.orderKey? at is
    split at is
    · next index =>
      obtain rfl := Option.some.inj is
      rcases reads.shape with ⟨_, other⟩ | writes
      · cases other
      · generalize same : Expr.number (index + 1) = shape at writes
        cases writes with
        | number isNumber =>
          cases same
          exact .position isNumber reads.directs
        | @column owners last =>
          cases found : owners.getLast? <;> simp [found, Expr.column] at same
    · obtain ⟨column, found, rfl⟩ := Option.map_eq_some_iff.mp is
      exact .column ((reads.writesColumn_iff column).mpr found)

/-- What was read becomes a key, or else its expression is noted. -/
theorem ReadsKey.item {writes : (String → Option String) → List Token → κ → Prop}
    {drop : String → Warning} {key? : Option κ}
    (reads : ReadsKey before expression directed expr direction after)
    (decides : ∀ key, writes before.statement.aliasOf? (expression ++ directed) key ↔ key? = some key) :
    ∃ outcome, key? = outcome.getLeft? ∧
      ReadsItem writes drop before (expression ++ directed) outcome
        (after.noting key? (drop ((Token.cover expression).slice before.cursor.text))) := by
  cases key? with
  | some key =>
    refine ⟨.inl key, rfl, reads.moves, reads.balanced, .key ((decides key).mpr rfl),
      reads.statement, ?_⟩
    exact reads.warnings.trans (List.append_nil _).symm
  | none =>
    refine ⟨.inr _, rfl, reads.moves, reads.balanced, .dropped (fun key writes => ?_) reads.directs,
      reads.statement, congrArg (· ++ _) reads.warnings⟩
    cases (decides key).mp writes

/-- The alias of a key is looked up among the items, which an item of a list of keys does not change. -/
theorem ReadsKey.aliasOf? (reads : ReadsKey before expression directed expr direction after) :
    after.statement.aliasOf? = before.statement.aliasOf? := by
  obtain ⟨edits, same⟩ := reads.statement
  rw [same]
  rfl

/-- The column of an item is its key. -/
theorem columnItem_cases {make : ColumnKey → κ} {owner : Option Name} {name : Name}
    {found : Option κ} {warning : Warning}
    (answers : Yields (do return some (make (← columnKey owner name direction))) before found after) :
    found = some (make (.ofName before.statement.aliasOf? owner name direction)) ∧
      after = before.noting found warning := by
  obtain ⟨key, _, looked, rest⟩ := yields_bind.mp answers
  obtain ⟨rfl, rfl⟩ := yields_pure.mp rest
  obtain ⟨rfl, rfl⟩ := yields_columnKey.mp looked
  exact ⟨rfl, rfl⟩

/-- An item that is no key is noted. -/
theorem noted_cases {found : Option κ} {warning : Warning}
    (answers : Yields (do warn warning; return none) before found after) :
    found = none ∧ after = before.noting found warning := by
  obtain ⟨_, _, noted, rest⟩ := yields_bind.mp answers
  obtain ⟨rfl, rfl⟩ := yields_pure.mp rest
  obtain rfl := yields_warn.mp noted
  exact ⟨rfl, rfl⟩

/-- A part of the list behind `GROUP BY` is read. -/
theorem groupItem_reads {found : Option ColumnKey} (lexed : Token.AreLexed before.cursor.rest)
    (answers : Yields groupItem before found after) :
    ∃ part outcome, found = outcome.getLeft? ∧
      ReadsItem Token.WritesColumn .groupItemIgnored before part outcome after := by
  obtain ⟨⟨expr, direction, text⟩, between, first, rest⟩ := yields_bind.mp answers
  obtain ⟨expression, directed, reads, rfl⟩ := keyItem_reads lexed first
  obtain ⟨rfl, rfl⟩ : found = expr.columnKey? before.statement.aliasOf? direction ∧
      after = between.noting found
        (.groupItemIgnored ((Token.cover expression).slice before.cursor.text)) := by
    rw [← reads.aliasOf?]
    dsimp only at rest
    split at rest
    · exact columnItem_cases rest
    · exact columnItem_cases rest
    · next noName noOwner =>
      obtain ⟨rfl, rfl⟩ := noted_cases rest
      cases expr <;> simp_all [Expr.columnKey?]
  obtain ⟨outcome, found, item⟩ := reads.item fun key => reads.writesColumn_iff key
  exact ⟨_, outcome, found, item⟩

/-- A part of the list behind `ORDER BY` is read. -/
theorem orderItem_reads {found : Option OrderKey} (lexed : Token.AreLexed before.cursor.rest)
    (answers : Yields orderItem before found after) :
    ∃ part outcome, found = outcome.getLeft? ∧
      ReadsItem Token.WritesOrder .orderItemDropped before part outcome after := by
  obtain ⟨⟨expr, direction, text⟩, between, first, rest⟩ := yields_bind.mp answers
  obtain ⟨expression, directed, reads, rfl⟩ := keyItem_reads lexed first
  obtain ⟨rfl, rfl⟩ : found = expr.orderKey? before.statement.aliasOf? direction ∧
      after = between.noting found
        (.orderItemDropped ((Token.cover expression).slice before.cursor.text)) := by
    rw [← reads.aliasOf?]
    dsimp only at rest
    split at rest
    · obtain ⟨rfl, rfl⟩ := yields_pure.mp rest
      exact ⟨rfl, rfl⟩
    · exact columnItem_cases rest
    · exact columnItem_cases rest
    · next noPosition noName noOwner =>
      obtain ⟨rfl, rfl⟩ := noted_cases rest
      refine ⟨?_, rfl⟩
      unfold Expr.orderKey?
      split
      · exact absurd rfl (noPosition _)
      · cases expr <;> simp_all [Expr.columnKey?]
  obtain ⟨outcome, found, item⟩ := reads.item fun key => reads.writesOrder_iff key
  exact ⟨_, outcome, found, item⟩

end Outcomes

section Lists
variable {κ : Type} {keys : Statement → List κ}
  {writes : (String → Option String) → List Token → κ → Prop} {drop : String → Warning}

/-- A part of a list of keys is read, and its key is added to the others; another part follows where a
comma is passed. -/
structure ReadsRound (keys : Statement → List κ)
    (writes : (String → Option String) → List Token → κ → Prop) (drop : String → Warning)
    (before : Analysis) (part : List Token) (outcome : κ ⊕ Warning) (again : Bool)
    (after : Analysis) : Prop where
  balanced : Token.Balanced part
  becomes : Token.BecomesKey (writes before.statement.aliasOf?) drop before.cursor.text part outcome
  aliases : after.statement.aliasOf? = before.statement.aliasOf?
  keys : keys after.statement = keys before.statement ++ outcome.getLeft?.toList
  warnings : after.warnings = before.warnings ++ outcome.getRight?.toList
  moves : if again then
      ∃ comma : Token, comma.kind = .symbol .comma ∧
        Moves before.cursor (part ++ [comma]) after.cursor
    else after.cursor.kind ≠ .symbol .comma ∧ Moves before.cursor part after.cursor

/-- The parts of a list of keys have become keys and warnings, one for each in the order of the text,
and the list goes up to where no comma stands. -/
structure ListsKeys (keys : Statement → List κ)
    (writes : (String → Option String) → List Token → κ → Prop) (drop : String → Warning)
    (before : Analysis) (list : List Token) (outcomes : List (κ ⊕ Warning))
    (after : Analysis) : Prop where
  moves : Moves before.cursor list after.cursor
  nested : Token.IsNested list
  becomes : List.Forall₂
    (Token.BecomesKey (writes before.statement.aliasOf?) drop before.cursor.text)
    (Token.parts 0 list) outcomes
  keys : keys after.statement = keys before.statement ++ outcomes.filterMap Sum.getLeft?
  warnings : after.warnings = before.warnings ++ outcomes.filterMap Sum.getRight?
  ends : after.cursor.kind ≠ .symbol .comma

/-- Rounds that read a part each read the list. -/
theorem listsKeys_of_rounds {body : AnalysisStep Bool}
    (round : ∀ {before after : Analysis} {again : Bool}, Token.AreLexed before.cursor.rest →
      Yields body before again after →
        ∃ part outcome, ReadsRound keys writes drop before part outcome again after)
    (lexed : Token.AreLexed before.cursor.rest) (ran : Repeats body before after) :
    ∃ list outcomes, ListsKeys keys writes drop before list outcomes after := by
  induction ran with
  | last answers =>
    obtain ⟨part, outcome, reads⟩ := round lexed answers
    obtain ⟨ends, moves⟩ := reads.moves
    refine ⟨part, [outcome], moves, reads.balanced.isNested, ?_, ?_, ?_, ends⟩
    · rw [Token.Level.parts_eq reads.balanced]
      exact .cons reads.becomes .nil
    · rw [reads.keys]
      cases outcome <;> rfl
    · rw [reads.warnings]
      cases outcome <;> rfl
  | again answers _ ih =>
    obtain ⟨part, outcome, reads⟩ := round lexed answers
    obtain ⟨comma, is, moves⟩ := reads.moves
    rw [moves.rest] at lexed
    obtain ⟨list, outcomes, lists⟩ := ih lexed.right
    have becomes := lists.becomes
    rw [reads.aliases, moves.text] at becomes
    refine ⟨part ++ comma :: list, outcome :: outcomes, ?_, reads.balanced.isNested_append is lists.nested,
      ?_, ?_, ?_, lists.ends⟩
    · simpa using moves.trans lists.moves
    · rw [Token.Level.parts_append reads.balanced is]
      exact .cons reads.becomes becomes
    · rw [lists.keys, reads.keys]
      cases outcome <;> simp [List.filterMap_cons]
    · rw [lists.warnings, reads.warnings]
      cases outcome <;> simp [List.filterMap_cons]

/-- Behind a part that has been read its key is added, and a comma is passed. -/
theorem ReadsItem.round {part : List Token} {outcome : κ ⊕ Warning} {between added : Analysis}
    {again : Bool} (item : ReadsItem writes drop before part outcome between)
    (answers : Yields (liftM (skipSymbol .comma) : AnalysisStep Bool) added again after)
    (unchanged : ∀ (s : Statement) (edits : List Edit), keys { s with edits } = keys s)
    (cursor : added.cursor = between.cursor) (warnings : added.warnings = between.warnings)
    (aliases : added.statement.aliasOf? = between.statement.aliasOf?)
    (isAdded : keys added.statement = keys between.statement ++ outcome.getLeft?.toList) :
    ReadsRound keys writes drop before part outcome again after := by
  obtain ⟨edits, statement⟩ := item.statement
  obtain ⟨behind, scanned, rfl⟩ := yields_scan.mp answers
  refine ⟨item.balanced, item.becomes, ?_, ?_, warnings.trans item.warnings, ?_⟩
  · rw [aliases, statement]
    rfl
  · rw [isAdded, statement, unchanged]
  · rw [cursor] at scanned
    rcases skipSymbol_cases scanned (by simp) with ⟨rfl, comma, is, passes⟩ | ⟨rfl, ends, rfl⟩
    · exact ⟨comma, is, item.moves.trans passes.toMoves⟩
    · exact ⟨ends, item.moves⟩

/-- A part of the list behind `GROUP BY` is read with what stands behind it. -/
theorem groupRound_reads {again : Bool} (lexed : Token.AreLexed before.cursor.rest)
    (answers : Yields groupRound before again after) :
    ∃ part outcome, ReadsRound Statement.groupBy Token.WritesColumn .groupItemIgnored before part outcome
      again after := by
  obtain ⟨found, between, first, rest⟩ := yields_bind.mp answers
  obtain ⟨part, outcome, rfl, item⟩ := groupItem_reads lexed first
  refine ⟨part, outcome, ?_⟩
  split at rest
  · next key is =>
    obtain ⟨_, added, changed, rest⟩ := yields_bind.mp rest
    obtain rfl := yields_change.mp changed
    refine item.round rest (fun _ _ => rfl) rfl rfl rfl ?_
    rw [is]
    rfl
  · next noKey =>
    refine item.round rest (fun _ _ => rfl) rfl rfl rfl ?_
    cases outcome with
    | inl key => exact absurd rfl (noKey key)
    | inr warning => exact (List.append_nil _).symm

/-- A part of the list behind `ORDER BY` is read with what stands behind it. -/
theorem orderRound_reads {dialect : Dialect} (noNulls : dialect.nullsPlacement = false) {again : Bool}
    (lexed : Token.AreLexed before.cursor.rest)
    (answers : Yields (orderRound dialect) before again after) :
    ∃ part outcome, ReadsRound Statement.orderBy Token.WritesOrder .orderItemDropped before part outcome
      again after := by
  obtain ⟨found, between, first, rest⟩ := yields_bind.mp answers
  unfold dialectOrderItem at first
  obtain ⟨_, middle, first, placed⟩ := yields_bind.mp first
  rw [noNulls, if_neg Bool.false_ne_true, yields_pure] at placed
  obtain ⟨rfl, rfl⟩ := placed
  obtain ⟨part, outcome, rfl, item⟩ := orderItem_reads lexed first
  refine ⟨part, outcome, ?_⟩
  split at rest
  · next key is =>
    obtain ⟨_, added, changed, rest⟩ := yields_bind.mp rest
    obtain rfl := yields_change.mp changed
    refine item.round rest (fun _ _ => rfl) rfl rfl rfl ?_
    rw [is]
    rfl
  · next noKey =>
    refine item.round rest (fun _ _ => rfl) rfl rfl rfl ?_
    cases outcome with
    | inl key => exact absurd rfl (noKey key)
    | inr warning => exact (List.append_nil _).symm

end Lists

section Clauses
open scoped Computability

/-- A clause with a list of keys behind `word` and `BY`, and behind the list parts in the language
`totals`. Where the word does not stand, there are no new keys. What stands behind the clause is in the
language `rest`. -/
inductive KeysListed {κ : Type} (word : Keyword) (keys : Statement → List κ)
    (writes : (String → Option String) → List Token → κ → Prop) (drop : String → Warning)
    (totals rest : Language Piece) (before after : Analysis) : Prop where
  | missing {pieces : List Piece} : before.cursor.kind ≠ .keyword word → pieces ∈ rest →
      Moves before.cursor (pieces.flatMap Piece.tokens) after.cursor →
      keys after.statement = keys before.statement → after.warnings = before.warnings →
        KeysListed word keys writes drop totals rest before after
  | standing {introducer byWord : Token} {start stop : Analysis} {list : List Token}
      {outcomes : List (κ ⊕ Warning)} {pieces : List Piece} :
      introducer.kind = .keyword word → byWord.kind = .keyword .BY →
      Moves before.cursor [introducer, byWord] start.cursor → start.statement = before.statement →
      start.warnings = before.warnings → ListsKeys keys writes drop start list outcomes stop →
      pieces ∈ totals * rest → Moves stop.cursor (pieces.flatMap Piece.tokens) after.cursor →
      keys after.statement = keys stop.statement → after.warnings = stop.warnings →
        KeysListed word keys writes drop totals rest before after

/-- Behind the word of a clause and `BY` the list is read. -/
theorem list_reads {κ : Type} {keys : Statement → List κ}
    {writes : (String → Option String) → List Token → κ → Prop} {drop : String → Warning}
    {body : AnalysisStep Bool} {introducer : Token} {cursor : Cursor} {start stop : Analysis}
    (round : ∀ {before after : Analysis} {again : Bool}, Token.AreLexed before.cursor.rest →
      Yields body before again after →
        ∃ part outcome, ReadsRound keys writes drop before part outcome again after)
    (lexed : Token.AreLexed before.cursor.rest) (passes : Passes before.cursor [introducer] cursor)
    (expected : Yields (liftM (expectKeyword .BY) : AnalysisStep Unit) { before with cursor } () start)
    (ran : Yields (Step.whileTrue body) start () stop) :
    ∃ byWord list outcomes, byWord.kind = .keyword .BY ∧
      Moves before.cursor [introducer, byWord] start.cursor ∧ start.statement = before.statement ∧
      start.warnings = before.warnings ∧ ListsKeys keys writes drop start list outcomes stop ∧
      Token.AreLexed stop.cursor.rest := by
  obtain ⟨behind, scanned, rfl⟩ := yields_scan.mp expected
  obtain ⟨byWord, isBy, more⟩ := expectKeyword_passes scanned
  have moves := passes.toMoves.trans more.toMoves
  rw [moves.rest] at lexed
  have listLexed : Token.AreLexed behind.rest := lexed.right
  obtain ⟨list, outcomes, lists⟩ := listsKeys_of_rounds round listLexed (repeats_of_whileTrue ran)
  rw [lists.moves.rest] at listLexed
  exact ⟨byWord, list, outcomes, isBy, moves, rfl, rfl, lists, listLexed.right⟩

/-- Passing tokens changes neither the statement nor the warnings. -/
theorem unchanged_of_scans {scan : Scan Bool}
    (ran : Repeats (liftM scan : AnalysisStep Bool) before after) :
    after.statement = before.statement ∧ after.warnings = before.warnings := by
  induction ran with
  | last answers =>
    obtain ⟨cursor, _, rfl⟩ := yields_scan.mp answers
    exact ⟨rfl, rfl⟩
  | again answers _ ih =>
    obtain ⟨cursor, _, rfl⟩ := yields_scan.mp answers
    exact ih

/-- The `HAVING` clause adds no key. -/
theorem having_cases {answer : Unit}
    (answers : Yields (do
      if ← skipKeyword .HAVING then
        let _ ← expressionWithEdits : AnalysisStep Unit) before answer after) :
    after.statement.groupBy = before.statement.groupBy ∧ after.warnings = before.warnings := by
  obtain ⟨found, between, first, rest⟩ := yields_bind.mp answers
  obtain ⟨cursor, _, rfl⟩ := yields_scan.mp first
  rcases yields_ite.mp rest with ⟨_, rest⟩ | ⟨_, rest⟩
  · obtain ⟨_, _, read, rest⟩ := yields_bind.mp rest
    obtain ⟨_, rfl⟩ := yields_pure.mp rest
    obtain ⟨inner, edits, _, rfl⟩ := expressionWithEdits_cases read
    exact ⟨rfl, rfl⟩
  · obtain ⟨_, rfl⟩ := yields_pure.mp rest
    exact ⟨rfl, rfl⟩

/-- No part of a list of keys is lost. Behind `GROUP BY` and behind `ORDER BY` each part of the list
becomes the key that it writes, or a warning when it writes none. -/
theorem keys_listed (lexed : Token.AreLexed before.cursor.rest) :
    (Yields groupBy before () after →
      KeysListed .GROUP Statement.groupBy Token.WritesColumn .groupItemIgnored
        (Piece.word [.WITH, .ROLLUP])∗ (Piece.introduced .HAVING) before after) ∧
    ∀ dialect ∈ Dialect.shipped, Yields (orderBy dialect) before () after →
      KeysListed .ORDER Statement.orderBy Token.WritesOrder .orderItemDropped 1 1 before after := by
  constructor
  · intro answers
    unfold groupBy at answers
    obtain ⟨found, between, first, rest⟩ := yields_bind.mp answers
    obtain ⟨cursor, scanned, rfl⟩ := yields_scan.mp first
    rcases skipKeyword_cases scanned with ⟨rfl, introducer, is, passes⟩ | ⟨rfl, elsewhere, rfl⟩
    · rw [if_pos rfl] at rest
      obtain ⟨_, start, second, rest⟩ := yields_bind.mp rest
      obtain ⟨_, stop, ran, rest⟩ := yields_bind.mp rest
      obtain ⟨_, last, skipped, rest⟩ := yields_bind.mp rest
      obtain ⟨byWord, list, outcomes, isBy, moves, statement, warnings, lists, lexedBehind⟩ :=
        list_reads groupRound_reads lexed passes second ran
      have totals := repeats_passes (fun answers =>
        skipAnyKeyword_passes answers (by simp [Piece.clauseWords])) (repeats_of_whileTrue skipped)
      rw [mul_one] at totals
      obtain ⟨pieces, among, reads⟩ := (totals.trans (having_passes rest)) lexedBehind
      obtain ⟨keys, noted⟩ := having_cases rest
      obtain ⟨sameStatement, sameWarnings⟩ := unchanged_of_scans (repeats_of_whileTrue skipped)
      exact .standing is isBy moves statement warnings lists among reads.moves
        (by rw [keys, sameStatement]) (noted.trans sameWarnings)
    · rw [if_neg Bool.false_ne_true] at rest
      obtain ⟨pieces, among, reads⟩ := having_passes rest lexed
      obtain ⟨keys, noted⟩ := having_cases rest
      exact .missing elsewhere among reads.moves keys noted
  · intro dialect shipped answers
    have noNulls := (Dialect.isPlain_of_shipped shipped).nullsPlacement
    unfold orderBy at answers
    obtain ⟨found, between, first, rest⟩ := yields_bind.mp answers
    obtain ⟨cursor, scanned, rfl⟩ := yields_scan.mp first
    rcases skipKeyword_cases scanned with ⟨rfl, introducer, is, passes⟩ | ⟨rfl, elsewhere, rfl⟩
    · rw [if_pos rfl] at rest
      obtain ⟨_, start, second, ran⟩ := yields_bind.mp rest
      obtain ⟨byWord, list, outcomes, isBy, moves, statement, warnings, lists, _⟩ :=
        list_reads (orderRound_reads noNulls) lexed passes second ran
      have none : ([] : List Piece) ∈ (1 * 1 : Language Piece) := by
        rw [one_mul]
        exact Language.nil_mem_one
      exact .standing is isBy moves statement warnings lists none (.refl _) rfl rfl
    · obtain ⟨_, rfl⟩ := yields_pure.mp rest
      exact .missing elsewhere Language.nil_mem_one (.refl _) rfl rfl

/-- A position that is zero and an expression that only begins with a column become warnings. -/
theorem keys_listed_of_mixed :
    let text := "GROUP BY t.a DESC, a + 1, b ORDER BY 2 DESC, 0, f(a, b), x.y.z"
    let before : Analysis := { cursor := { text, rest := Token.list text } }
    ∃ between after,
      Yields groupBy before () between ∧ Yields (orderBy .mysql) between () after ∧
      KeysListed .GROUP Statement.groupBy Token.WritesColumn .groupItemIgnored
        (Piece.word [.WITH, .ROLLUP])∗ (Piece.introduced .HAVING) before between ∧
      KeysListed .ORDER Statement.orderBy Token.WritesOrder .orderItemDropped 1 1 between after ∧
      after.statement.groupBy = [⟨some "t", "a", .descending, none⟩, ⟨none, "b", .ascending, none⟩] ∧
      after.statement.orderBy =
        [.position 2 .descending, .column ⟨some "y", "z", .ascending, none⟩] ∧
      after.warnings = [.groupItemIgnored "a + 1", .orderItemDropped "0",
        .orderItemDropped "f(a, b)"] := by
  intro text before
  let between := (groupBy before).2
  let after := (orderBy .mysql between).2
  have outcome : (groupBy before).1 = .ok () ∧ (orderBy .mysql between).1 = .ok () ∧
      after.statement.groupBy = [⟨some "t", "a", .descending, none⟩, ⟨none, "b", .ascending, none⟩] ∧
      after.statement.orderBy =
        [.position 2 .descending, .column ⟨some "y", "z", .ascending, none⟩] ∧
      after.warnings = [.groupItemIgnored "a + 1", .orderItemDropped "0",
        .orderItemDropped "f(a, b)"] := by
    decide +kernel
  obtain ⟨grouped, ordered, results⟩ := outcome
  have first : Yields groupBy before () between := Prod.ext grouped rfl
  have second : Yields (orderBy .mysql) between () after := Prod.ext ordered rfl
  have lexed : Token.AreLexed before.cursor.rest := Token.areLexed_list text
  have listed := (keys_listed lexed).1 first
  have lexedBetween : Token.AreLexed between.cursor.rest := by
    obtain ⟨pieces, _, reads⟩ := groupBy_passes first lexed
    exact (reads.lexed lexed).2
  exact ⟨between, after, first, second, listed,
    (keys_listed lexedBetween).2 _ (by decide) second, results⟩

end Clauses

end AnalysisStep

end SelectRouting
