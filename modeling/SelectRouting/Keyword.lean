import SelectRouting.Text.Case

/-!
# Keywords

The words that the analysis of a query recognises, whatever the case of their letters. The set is
small: every other word is a name, also one that some database reserves.
-/

namespace SelectRouting

/-- A keyword, written as in a query. -/
inductive Keyword where
  -- the clauses of a query
  | SELECT | FROM | WHERE | GROUP | BY | HAVING | ORDER | ASC | DESC | DISTINCT | DISTINCTROW | ALL
  | AS | WITH | ROLLUP | LIMIT | OFFSET | ROW | ROWS
  -- locking reads
  | FOR | LOCK
  -- joins
  | JOIN | INNER | LEFT | RIGHT | FULL | OUTER | CROSS | NATURAL | STRAIGHT_JOIN | ON | USING
  -- set operations
  | UNION | EXCEPT | INTERSECT | MINUS
  -- predicates
  | AND | OR | NOT | IN | BETWEEN | LIKE | IS | NULL | TRUE | FALSE | EXISTS
  -- conditional expressions
  | CASE | WHEN | THEN | ELSE | END
  -- aggregate functions
  | COUNT | SUM | AVG | MIN | MAX
deriving DecidableEq

namespace Keyword

/-- Every keyword. -/
def all : List Keyword :=
  [.SELECT, .FROM, .WHERE, .GROUP, .BY, .HAVING, .ORDER, .ASC, .DESC, .DISTINCT, .DISTINCTROW, .ALL,
    .AS, .WITH, .ROLLUP, .LIMIT, .OFFSET, .ROW, .ROWS, .FOR, .LOCK, .JOIN, .INNER, .LEFT, .RIGHT,
    .FULL, .OUTER, .CROSS, .NATURAL, .STRAIGHT_JOIN, .ON, .USING, .UNION, .EXCEPT, .INTERSECT,
    .MINUS, .AND, .OR, .NOT, .IN, .BETWEEN, .LIKE, .IS, .NULL, .TRUE, .FALSE, .EXISTS, .CASE, .WHEN,
    .THEN, .ELSE, .END, .COUNT, .SUM, .AVG, .MIN, .MAX]

/-- The keyword in upper case. -/
def spelling : Keyword → String
  | .SELECT => "SELECT"
  | .FROM => "FROM"
  | .WHERE => "WHERE"
  | .GROUP => "GROUP"
  | .BY => "BY"
  | .HAVING => "HAVING"
  | .ORDER => "ORDER"
  | .ASC => "ASC"
  | .DESC => "DESC"
  | .DISTINCT => "DISTINCT"
  | .DISTINCTROW => "DISTINCTROW"
  | .ALL => "ALL"
  | .AS => "AS"
  | .WITH => "WITH"
  | .ROLLUP => "ROLLUP"
  | .LIMIT => "LIMIT"
  | .OFFSET => "OFFSET"
  | .ROW => "ROW"
  | .ROWS => "ROWS"
  | .FOR => "FOR"
  | .LOCK => "LOCK"
  | .JOIN => "JOIN"
  | .INNER => "INNER"
  | .LEFT => "LEFT"
  | .RIGHT => "RIGHT"
  | .FULL => "FULL"
  | .OUTER => "OUTER"
  | .CROSS => "CROSS"
  | .NATURAL => "NATURAL"
  | .STRAIGHT_JOIN => "STRAIGHT_JOIN"
  | .ON => "ON"
  | .USING => "USING"
  | .UNION => "UNION"
  | .EXCEPT => "EXCEPT"
  | .INTERSECT => "INTERSECT"
  | .MINUS => "MINUS"
  | .AND => "AND"
  | .OR => "OR"
  | .NOT => "NOT"
  | .IN => "IN"
  | .BETWEEN => "BETWEEN"
  | .LIKE => "LIKE"
  | .IS => "IS"
  | .NULL => "NULL"
  | .TRUE => "TRUE"
  | .FALSE => "FALSE"
  | .EXISTS => "EXISTS"
  | .CASE => "CASE"
  | .WHEN => "WHEN"
  | .THEN => "THEN"
  | .ELSE => "ELSE"
  | .END => "END"
  | .COUNT => "COUNT"
  | .SUM => "SUM"
  | .AVG => "AVG"
  | .MIN => "MIN"
  | .MAX => "MAX"

/-- The keyword that a word spells, ignoring the case of its letters. -/
def lookup? (word : String) : Option Keyword :=
  all.find? fun keyword => Text.sameIgnoringCase keyword.spelling word

/-- A capital at the start of the text and behind every underscore, which is dropped; all other
letters are small. -/
def titleCase (atStart : Bool) : List Char → List Char
  | [] => []
  | c :: cs =>
    if c == '_' then titleCase true cs
    else (if atStart then c.toUpper else c.toLower) :: titleCase false cs

/-- The name of the keyword in messages, such as `StraightJoin`. -/
def name (keyword : Keyword) : String :=
  String.ofList (titleCase true keyword.spelling.toList)

/-- The keyword is also a column name. `LIMIT` is none: it closes a clause in every dialect, so a
column of that name has to be quoted. -/
def isNonReserved : Keyword → Bool
  | .OFFSET | .ROW | .ROWS => true
  | _ => false

/-- The keyword starts a second query body. -/
def isSetOperation : Keyword → Bool
  | .UNION | .EXCEPT | .INTERSECT | .MINUS => true
  | _ => false

end Keyword

end SelectRouting
