/-!
# Dialects

Databases disagree on a few corners of a query. A dialect says what holds at each of them;
everything else is the same for all.
-/

namespace SelectRouting

/-- What may follow the `ORDER BY` clause. -/
inductive TrailingClauses where
  /-- Nothing. -/
  | none
  /-- A `LIMIT` clause with one or two operands, and a locking read. -/
  | limitAndLocking
  /-- `LIMIT` and `OFFSET` clauses in either order. -/
  | limitAndOffset
deriving DecidableEq

/-- What happens to the text between `HAVING` and `ORDER BY`. -/
inductive BodyEnd where
  /-- A set operation is rejected, anything else left to the clauses that follow. -/
  | rejectSetOperation
  /-- Everything up to the end of the input is passed. -/
  | passAll
deriving DecidableEq

/-- The choices of a dialect. -/
structure Dialect where
  name : String
  /-- `DISTINCT ON (...)` is accepted. -/
  distinctOn : Bool := false
  /-- A word that may stand before each projection item and is passed. -/
  itemWord : Option String := Option.none
  /-- `NULLS FIRST` or `NULLS LAST` may follow an item of `ORDER BY`. -/
  nullsPlacement : Bool := false
  bodyEnd : BodyEnd := .rejectSetOperation
  trailing : TrailingClauses := .none
deriving DecidableEq

namespace Dialect

/-- The clauses that all databases share. -/
def generic : Dialect where
  name := "generic"

/-- Row limits with a comma, and locking reads. -/
def mysql : Dialect where
  name := "mysql"
  trailing := .limitAndLocking

/-- `DISTINCT ON`, and row limits in either order. -/
def postgres : Dialect where
  name := "postgres"
  distinctOn := true
  trailing := .limitAndOffset

/-- The dialects that can be chosen by name. -/
def shipped : List Dialect :=
  [generic, mysql, postgres]

/-- The dialect of a name. -/
def ofName? (name : String) : Option Dialect :=
  shipped.find? (·.name == name)

end Dialect

end SelectRouting
