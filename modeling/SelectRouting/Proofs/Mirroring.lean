import SelectRouting.Proofs.AgreeingClauses
import SelectRouting.Proofs.Pieces

/-!
# Clauses at another place

The clauses behind the projection list are read in the same way where the same tokens stand at other
offsets of another text: the same tables, the same keys, the same row limit
(`AnalysisStep.SelectRun.mirrored`). Which aliases the keys get depends on the projection list, and the
placeholders may have other numbers.
-/

namespace SelectRouting

/-- The cursors stand before the same tokens, at whatever offsets. -/
def Cursor.Alike (cursor other : Cursor) : Prop :=
  other.rest.map Token.content = cursor.rest.map Token.content

/-- Only the texts of tokens count. -/
def Likeness.elsewhere : Likeness where
  text := Eq
  quote _ _ := True
  place _ _ := True
  count _ _ := True

open Likeness

instance : elsewhere.Lawful where
  refl _ := rfl
  append left right := congrArg₂ (· ++ ·) left right
  stripQuotes_name same := congrArg Text.stripQuotes same
  text_of_name := id
  stripQuotes same := congrArg Text.stripQuotes same
  name_of_word alike _ := alike.lexeme
  spells {token token'} alike word _ := by rw [show token.lexeme = token'.lexeme from alike.lexeme]
  stripQuotes_quote := id
  quote_empty := trivial
  count_succ := id

theorem Cursor.Alike.like {cursor other : Cursor} (alike : cursor.Alike other) :
    Cursor.Like elsewhere cursor other := by
  have tokens : List.Forall₂ (Token.Like elsewhere) cursor.rest other.rest := by
    have same := alike.symm
    rw [← List.forall₂_eq_eq_eq, List.forall₂_map_left_iff, List.forall₂_map_right_iff] at same
    refine same.imp fun token token' is => ?_
    obtain ⟨kind, lexeme⟩ := Prod.mk.inj is
    exact ⟨by rw [kind]; exact .same _, lexeme, ⟨trivial, trivial⟩, trivial⟩
  have ended : Token.Like elsewhere (.eof cursor.text.utf8ByteSize) (.eof other.text.utf8ByteSize) :=
    ⟨.same _, rfl, ⟨trivial, trivial⟩, trivial⟩
  exact ⟨tokens, fun n _ => (@peek_like elsewhere _ _ tokens ended (n + 1)).lexeme, ⟨trivial, trivial⟩, trivial, ended,
    fun _ => trivial⟩

/-- The key without its alias. -/
def ColumnKey.bare (key : ColumnKey) : ColumnKey :=
  { key with aliasName := none }

/-- The key without its alias. -/
def OrderKey.bare : OrderKey → OrderKey
  | .column key => .column key.bare
  | .position index direction => .position index direction

/-- The operand without the number of its placeholder. -/
def LimitValue.bare : LimitValue → LimitValue
  | .literal value => .literal value
  | .parameter _ => .parameter 0

/-- The row limit without the numbers of its placeholders. -/
def Limit.bare (limit : Limit) : Limit :=
  ⟨limit.offset.map LimitValue.bare, limit.rowCount.map LimitValue.bare⟩

/-- The statements have the same tables, the same keys, whatever their aliases, and the same row
limit, whatever the numbers of its placeholders. -/
structure Statement.Alike (statement other : Statement) : Prop where
  distinct : other.distinct = statement.distinct
  tables : other.tables = statement.tables
  groupBy : other.groupBy.map ColumnKey.bare = statement.groupBy.map ColumnKey.bare
  orderBy : other.orderBy.map OrderKey.bare = statement.orderBy.map OrderKey.bare
  limit : other.limit.map Limit.bare = statement.limit.map Limit.bare

section Derived
variable (stem : String) (number : Nat)

/-- A derived alias is all that a key gets. -/
theorem ColumnKey.bare_deriveAll (keys : List ColumnKey) :
    (deriveAll stem number keys).1.map bare = keys.map bare := by
  induction keys generalizing number with
  | nil => rfl
  | cons key keys ih =>
    cases given : key.aliasName with
    | some aliasName => simp [deriveAll, derive, given, ih]
    | none => simp [deriveAll, derive, given, ih, bare]

theorem OrderKey.bare_deriveAll (keys : List OrderKey) :
    (deriveAll stem number keys).1.map bare = keys.map bare := by
  induction keys generalizing number with
  | nil => rfl
  | cons key keys ih =>
    cases key with
    | column key =>
      cases given : key.aliasName with
      | some aliasName => simp [deriveAll, ColumnKey.derive, given, ih]
      | none => simp [deriveAll, ColumnKey.derive, given, ih, bare, ColumnKey.bare]
    | position index direction => simp [deriveAll, ih]

end Derived

/-- The derived columns leave the tables, the keys and the row limit as they are. -/
theorem Statement.alike_withDerivedColumns (statement : Statement) :
    statement.Alike statement.withDerivedColumns where
  distinct := rfl
  tables := rfl
  groupBy := by
    unfold withDerivedColumns
    dsimp only
    split
    · rfl
    · exact ColumnKey.bare_deriveAll _ _ _
  orderBy := by
    unfold withDerivedColumns
    dsimp only
    split
    · rfl
    · exact OrderKey.bare_deriveAll _ _ _
  limit := rfl

theorem Statement.Alike.refl (statement : Statement) : statement.Alike statement :=
  ⟨rfl, rfl, rfl, rfl, rfl⟩

theorem Statement.Alike.symm {statement other : Statement} (alike : statement.Alike other) :
    other.Alike statement :=
  ⟨alike.distinct.symm, alike.tables.symm, alike.groupBy.symm, alike.orderBy.symm, alike.limit.symm⟩

theorem Statement.Alike.trans {first second third : Statement} (left : first.Alike second)
    (right : second.Alike third) : first.Alike third :=
  ⟨right.distinct.trans left.distinct, right.tables.trans left.tables,
    right.groupBy.trans left.groupBy, right.orderBy.trans left.orderBy,
    right.limit.trans left.limit⟩

/-- The analyses stand before the same tokens and have found the same. -/
structure Analysis.Alike (state other : Analysis) : Prop where
  cursor : state.cursor.Alike other.cursor
  statement : state.statement.Alike other.statement

section Likeness

theorem eq_of_rel {α : Type} {found other : Option α} (same : Option.Rel Eq found other) :
    found = other := by
  cases same with
  | none => rfl
  | some same => exact congrArg some same

/-- The aliases of keys do not count. -/
abbrev AnyAlias (_ _ : Option String) : Prop := True

/-- Keys whose columns have the same names are the same but for their aliases. -/
theorem ColumnKey.Like.bare_eq {like : Likeness} (exact : ∀ {text text'}, like.text text text' → text = text')
    {key other : ColumnKey} (alike : ColumnKey.Like like AnyAlias key other) :
    other.bare = key.bare := by
  obtain ⟨owner, name, direction, aliasName⟩ := key
  obtain ⟨owner', name', direction', aliasName'⟩ := other
  obtain rfl : name = name' := exact alike.name
  obtain rfl : direction' = direction := alike.direction
  cases alike.owner with
  | none => rfl
  | some owners =>
    obtain rfl := exact owners
    rfl

theorem OrderKey.Like.bare_eq {like : Likeness} (exact : ∀ {text text'}, like.text text text' → text = text')
    {key other : OrderKey} (alike : OrderKey.Like like AnyAlias key other) : other.bare = key.bare := by
  cases alike with
  | column alike => exact congrArg OrderKey.column (alike.bare_eq exact)
  | position => rfl

theorem Limit.Like.bare_eq {limit other : Limit} (alike : Limit.Like elsewhere limit other) :
    other.bare = limit.bare := by
  have operand {value other : Option LimitValue} (same : Option.Rel (LimitValue.Like elsewhere) value other) :
      other.map LimitValue.bare = value.map LimitValue.bare := by
    cases same with
    | none => rfl
    | some same => cases same <;> rfl
  exact congrArg₂ Limit.mk (operand alike.offset) (operand alike.rowCount)

instance : EditRelation elsewhere Statement.Alike where
  edits alike _ _ := { alike with }

instance : ClauseRelation elsewhere AnyAlias Statement.Alike where
  isEmpty_tables alike := congrArg List.isEmpty alike.tables
  withOwner alike owners := by
    refine EditRelation.withOwner alike owners ?_
    rw [Statement.findTable?, Statement.findTable?, alike.tables, show _ = _ from owners.value]
  aliasOf _ _ := trivial
  tables {_ _ table table'} alike names aliases := by
    have is : table' = table := congrArg₂ Table.mk (Eq.symm names) (eq_of_rel aliases).symm
    exact { alike with tables := congrArg₂ (· ++ [·]) alike.tables is }
  parameters alike _ := { alike with }
  groupKeys alike same := { alike with groupBy := by simp [alike.groupBy, ColumnKey.Like.bare_eq id same] }
  orderKeys alike same := { alike with orderBy := by simp [alike.orderBy, OrderKey.Like.bare_eq id same] }
  limits alike same := { alike with limit := congrArg some same.bare_eq }

end Likeness

namespace AnalysisStep
open Step

/-- What is behind the projection list of a query is read in the same way behind another one. -/
theorem SelectRun.mirrored {dialect : Dialect} {before after : Analysis}
    (run : SelectRun dialect before after) : ∃ middle, Yields (head dialect) before () middle ∧
      ∀ {before' middle' : Analysis}, Yields (head dialect) before' () middle' →
        middle.Alike middle' → ∃ after', Yields (select dialect) before' () after' ∧
          after.statement.Alike after'.statement := by
  obtain ⟨head, tables, filters, groups, ends, orders, trails, ending⟩ := run
  refine ⟨_, head, fun head' alike => ?_⟩
  have start : Analysis.Like elsewhere Statement.Alike _ _ := ⟨alike.cursor.like, alike.statement⟩
  have derived (s s' : Statement) (alike : s.Alike s') :
      s.withDerivedColumns.Alike s'.withDerivedColumns :=
    (s.alike_withDerivedColumns.symm.trans alike).trans s'.alike_withDerivedColumns
  obtain ⟨_, _, tables', _, alike⟩ := fromClause_agrees.of_yields tables start
  obtain ⟨_, _, filters', _, alike⟩ := condition_agrees.of_yields filters alike
  obtain ⟨_, _, groups', _, alike⟩ := groupBy_agrees.of_yields groups alike
  obtain ⟨_, _, ends', _, alike⟩ := (Agrees.scan (bodyEnd_agrees dialect)).of_yields ends alike
  obtain ⟨_, _, orders', _, alike⟩ := (orderBy_agrees dialect).of_yields orders alike
  obtain ⟨_, _, trails', _, alike⟩ := (trailingClauses_agrees dialect).of_yields trails alike
  obtain ⟨_, after', ending', _, alike⟩ := (ending_agrees derived).of_yields ending alike
  exact ⟨after', SelectRun.yields
    ⟨head', tables', filters', groups', ends', orders', trails', ending'⟩, alike.statement⟩

end AnalysisStep

end SelectRouting
