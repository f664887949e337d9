/-!
# Edits

What has to change in the text of a query before it is sent to one shard. An edit is anchored at a
byte offset of the text as it was analysed.
-/

namespace SelectRouting

/-- One change of the text of a query. -/
inductive Edit where
  /-- The table name written as `text` at `offset` may be replaced. -/
  | tableName (offset : Nat) (text : String)
  /-- The columns are added to the projection list, which ends at `offset`. -/
  | projection (offset : Nat) (columns : List String)
deriving DecidableEq

namespace Edit

/-- The anchor of the edit. -/
def offset : Edit → Nat
  | .tableName offset _ | .projection offset _ => offset

/-- The offset behind the text that the edit is about; an insertion is about none. -/
def stop : Edit → Nat
  | .tableName offset text => offset + text.utf8ByteSize
  | .projection offset _ => offset

/-- The text that adds the columns to a list: a comma before each of them, a space at the end. -/
def insertion (columns : List String) : String :=
  String.join (columns.map fun column => ", " ++ column) ++ " "

end Edit

end SelectRouting
