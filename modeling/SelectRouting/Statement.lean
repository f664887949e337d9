import SelectRouting.Edit
import SelectRouting.Keyword

/-!
# Select statements

What the analysis of a query finds: the projection list, the tables, the keys of grouping and
ordering, the row limit, and the edits that turn the query into one for a single shard.
-/

namespace SelectRouting

/-- The aggregate functions whose results can be combined across shards. -/
inductive AggregateFunction where
  | count | sum | min | max | avg
deriving DecidableEq

namespace AggregateFunction

/-- The function that a keyword names. -/
def ofKeyword? : Keyword → Option AggregateFunction
  | .COUNT => some .count
  | .SUM => some .sum
  | .MIN => some .min
  | .MAX => some .max
  | .AVG => some .avg
  | _ => none

/-- The name of the function in a query. -/
def spelling : AggregateFunction → String
  | .count => "COUNT"
  | .sum => "SUM"
  | .min => "MIN"
  | .max => "MAX"
  | .avg => "AVG"

end AggregateFunction

/-- A column that is added to the query of a shard so that an average can be combined. The argument
keeps its parentheses. -/
structure DerivedColumn where
  function : AggregateFunction
  argument : String
  aliasName : String
deriving DecidableEq

/-- The call that the column holds. -/
def DerivedColumn.expression (column : DerivedColumn) : String :=
  column.function.spelling ++ column.argument

/-- A call of an aggregate function in the projection list. The argument is kept as written, with
its parentheses, and positions count from one. -/
structure Aggregation where
  function : AggregateFunction
  argument : String
  aliasName : Option String
  position : Nat
  derived : List DerivedColumn := []
deriving DecidableEq

/-- The call as text. -/
def Aggregation.expression (aggregation : Aggregation) : String :=
  aggregation.function.spelling ++ aggregation.argument

/-- One item of the projection list. -/
inductive Item where
  /-- All columns. -/
  | star (aliasName : Option String)
  /-- A call of an aggregate function. -/
  | aggregation (call : Aggregation)
  /-- Any other expression, as text without quotes. -/
  | plain (expression : String) (aliasName : Option String)
deriving DecidableEq

namespace Item

/-- The expression of the item as text. -/
def expression : Item → String
  | .star _ => "*"
  | .aggregation call => call.expression
  | .plain expression _ => expression

/-- The alias of the item. -/
def aliasName : Item → Option String
  | .star aliasName | .plain _ aliasName => aliasName
  | .aggregation call => call.aliasName

/-- The item is all columns. -/
def isStar : Item → Bool
  | .star _ => true
  | _ => false

theorem any_isStar_iff {items : List Item} :
    items.any isStar = true ↔ ∃ aliasName, star aliasName ∈ items := by
  constructor
  · intro found
    obtain ⟨_ | _ | _, among, is⟩ := List.any_eq_true.mp found
    · exact ⟨_, among⟩
    · cases is
    · cases is
  · rintro ⟨aliasName, among⟩
    exact List.any_eq_true.mpr ⟨_, among, rfl⟩

end Item

/-- A table of the `FROM` clause, without quotes. A table that is joined with itself appears
twice. -/
structure Table where
  name : String
  aliasName : Option String
deriving DecidableEq

/-- The direction of a key. -/
inductive Direction where
  | ascending | descending
deriving DecidableEq

/-- The direction in a query. -/
def Direction.spelling : Direction → String
  | .ascending => "ASC"
  | .descending => "DESC"

/-- A column by which rows are grouped or ordered, and the alias of the projection item that carries
it. -/
structure ColumnKey where
  owner : Option String
  name : String
  direction : Direction
  aliasName : Option String
deriving DecidableEq

/-- The column with its owner. -/
def ColumnKey.qualifiedName (key : ColumnKey) : String :=
  match key.owner with
  | some owner => owner ++ "." ++ key.name
  | none => key.name

/-- A key of `ORDER BY`: a column, or the position of a projection item, counted from one. -/
inductive OrderKey where
  | column (key : ColumnKey)
  | position (index : Nat) (direction : Direction)
deriving DecidableEq

/-- An operand of a row limit: a number, or a placeholder by its index. -/
inductive LimitValue where
  | literal (value : Nat)
  | parameter (index : Nat)
deriving DecidableEq

/-- A row limit: the rows to skip and the rows to answer. -/
structure Limit where
  offset : Option LimitValue := none
  rowCount : Option LimitValue := none
deriving DecidableEq

/-- A query as the analysis sees it. -/
structure Statement where
  distinct : Bool := false
  /-- The projection list, in the order of the text. -/
  items : List Item := []
  /-- The tables, in the order of the text. -/
  tables : List Table := []
  groupBy : List ColumnKey := []
  orderBy : List OrderKey := []
  /-- Some item is all columns. -/
  containsStar : Bool := false
  /-- The offset of the token that ended the projection list. -/
  projectionEnd : Nat := 0
  /-- The placeholders up to the end of the `WHERE` clause. -/
  parameters : Nat := 0
  limit : Option Limit := none
  /-- The edits, in the order in which they were found. -/
  edits : List Edit := []
deriving DecidableEq

end SelectRouting
