import SelectRouting.Analysis.State
import SelectRouting.Routes

/-!
# The query for one shard

The edits of a statement are made in the text one after another, from the last offset to the first,
so that the offsets of the edits to come stay valid. An edit that does not fit the text as it was
analysed, or that reaches into an edit already made, is left out with a warning.
-/

namespace SelectRouting

namespace Edit

/-- Adds an edit to a list that is ordered by descending offset, before the edits of its offset. -/
def place (edit : Edit) : List Edit → List Edit
  | [] => [edit]
  | other :: edits =>
    if other.offset ≤ edit.offset then edit :: other :: edits else other :: place edit edits

/-- The edits by descending offset, those of one offset in their given order. -/
def descending (edits : List Edit) : List Edit :=
  edits.foldr place []

/-- The edits without those that equal the one before them. -/
def dropRepeats : List Edit → List Edit
  | [] => []
  | [edit] => [edit]
  | edit :: next :: edits =>
    if edit == next then dropRepeats (next :: edits) else edit :: dropRepeats (next :: edits)

end Edit

/-- Answers the table to put in place of a name. The names that were looked up before are given, so
that the answer may change from one time to the next. -/
abbrev Mapper := List String → String → Option String

/-- A text into which edits are being made. No edit has been made before `boundary`. -/
structure Splicing where
  text : List Char
  boundary : Nat
  /-- The table names that were looked up, without quotes. -/
  lookups : List String := []
  warnings : List Warning := []

namespace Splicing

/-- The text before any edit. -/
def start (source : List Char) : Splicing :=
  { text := source, boundary := Text.width source }

/-- Puts new text in place of a part of the text. -/
def splice (state : Splicing) (start stop : Nat) (new : String) : Splicing :=
  { state with
    text := (Text.replace? start stop new.toList state.text).getD state.text
    boundary := start }

/-- Makes one edit, or leaves it out with a warning. A name for which `mapper` answers nothing stays
as it is. -/
def apply (source : List Char) (mapper : Mapper) (state : Splicing) : Edit → Splicing
  | .tableName offset text =>
    let stop := offset + text.utf8ByteSize
    if stop ≤ state.boundary && Text.slice? offset stop source == some text.toList then
      let name := Text.stripQuotes text
      let looked := { state with lookups := state.lookups ++ [name] }
      match mapper state.lookups name with
      | some new => looked.splice offset stop new
      | none => { looked with boundary := offset }
    else { state with warnings := state.warnings ++ [.mismatchedTable offset text] }
  | .projection offset columns =>
    if offset ≤ state.boundary && Text.isBoundary offset source then
      state.splice offset offset (Edit.insertion columns)
    else { state with warnings := state.warnings ++ [.misplacedInsertion offset] }

/-- Makes the edits in a query, with `mapper` answering the table to put in place of a name. -/
def runWith (edits : List Edit) (mapper : Mapper) (query : String) : Splicing :=
  let source := query.toList
  (Edit.dropRepeats (Edit.descending edits)).foldl (apply source mapper) (start source)

/-- Makes the edits in a query, with `physical` answering the table to put in place of a name,
always the same one. -/
def run (edits : List Edit) (physical : String → Option String) (query : String) : Splicing :=
  runWith edits (fun _ => physical) query

end Splicing

/-- The query with the edits made in it and its tables replaced along the routes. -/
def Routes.shardQuery (routes : Routes) (edits : List Edit) (query : String) : String :=
  String.ofList (Splicing.run edits routes.get? query).text

end SelectRouting
