import SelectRouting.Analysis.Select
import SelectRouting.CommandLine.Invocation
import SelectRouting.Report.Summary
import SelectRouting.Splicing

/-!
# Running a command

A command reads its routes, then its query, then analyses the query; the first of these that fails
decides the error.
-/

namespace SelectRouting

/-- Why a command fails. -/
inductive CommandError where
  | parse (error : ParseError)
  | invalidRoute (route : String)
  | emptyQuery
deriving DecidableEq

namespace CommandError

/-- The wording of the error. -/
def message : CommandError → String
  | .parse error => "Cannot analyze query: " ++ error.message
  | .invalidRoute route => s!"Invalid table route '{route}': expected logical=physical"
  | .emptyQuery => "No SQL query given"

/-- The error as it is shown: the message, and the cause when there is one behind it. -/
def shown (error : CommandError) : String :=
  let first := s!"Error: {error.message}\n"
  match error with
  | .parse cause => first ++ s!"\nCaused by:\n    {cause.message}\n"
  | _ => first

end CommandError

/-- The pair that a route is written for. -/
def readRoute (route : String) : Except CommandError (String × String) :=
  match Routes.pairOf? route with
  | some pair => .ok pair
  | none => .error (.invalidRoute route)

/-- The routes of a command; the first that is malformed decides the error. -/
def readRoutes (routes : List String) : Except CommandError Routes :=
  return Routes.ofList (← routes.mapM readRoute)

/-- The query without the blanks around it, which may not be empty. -/
def readQuery (text : String) : Except CommandError String :=
  let query := Text.trim text
  if query.isEmpty then .error .emptyQuery else .ok query

/-- The statement of a query. -/
def analyzeQuery (dialect : Dialect) (query : String) : Except CommandError Statement :=
  (Statement.ofText dialect query).mapError .parse

/-- The report on a statement, with the query for a shard when there is a route. -/
def Report.of (dialect : Dialect) (routes : Routes) (query : String) (statement : Statement) :
    Report where
  dialect := dialect.name
  statement := statement
  shardQuery := if routes.isEmpty then none else some (routes.shardQuery statement.edits query)

/-- What a run leaves: the exit code and what is written to the two outputs. -/
structure Outcome where
  code : Nat
  output : String := ""
  errors : String := ""
deriving DecidableEq

namespace Invocation

/-- The output of a command, with `input` as the standard input. -/
def output (invocation : Invocation) (input : String) : Except CommandError String := do
  let routes ← readRoutes invocation.routes
  let query ← readQuery (invocation.query.getD input)
  let statement ← analyzeQuery invocation.dialect query
  match invocation.command with
  | .analyze format =>
    let report := Report.of invocation.dialect routes query statement
    match format with
    | .text => return report.toText
    | .json => return report.toJson.pretty ++ "\n"
  | .shardQuery => return routes.shardQuery statement.edits query ++ "\n"

/-- What running the command leaves. -/
def run (invocation : Invocation) (input : String) : Outcome :=
  match invocation.output input with
  | .ok output => { code := 0, output }
  | .error error => { code := 1, errors := error.shown }

end Invocation

/-- What a command line that is not understood leaves. -/
def UsageError.outcome : Outcome :=
  { code := 2 }

end SelectRouting
