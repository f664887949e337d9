import SelectRouting.CommandLine.Arguments
import SelectRouting.Dialect

/-!
# Invocations

What a command line asks for: a dialect and one of two commands. One shows what the analysis of a
query finds, the other the query for a shard. The query is an operand, or else it comes from the
standard input.
-/

namespace SelectRouting

/-- How the result of an analysis is shown. -/
inductive ReportFormat where
  | text | json
deriving DecidableEq

/-- The command of an invocation. -/
inductive Command where
  | analyze (format : ReportFormat)
  | shardQuery
deriving DecidableEq

/-- What is asked for. -/
structure Invocation where
  dialect : Dialect
  command : Command
  /-- The query, when it is on the command line. -/
  query : Option String
  /-- The routes as written. -/
  routes : List String
deriving DecidableEq

namespace Invocation

/-- The options before the command. -/
def commonOptions : List OptionSpec :=
  [{ long := "dialect", short := some 'd', takesValue := true },
    { long := "verbose", short := some 'v' }]

/-- The option of both commands that gives a route. -/
def routeOption : OptionSpec :=
  { long := "table", short := some 't', takesValue := true }

/-- The dialect that is asked for on the command line, or else in the environment. -/
def chooseDialect (asked environment : Option String) : Except UsageError Dialect :=
  match asked <|> environment with
  | none => .ok .generic
  | some name =>
    match Dialect.ofName? name with
    | some dialect => .ok dialect
    | none => .error .unknownDialect

/-- The query among the operands of a command, of which there may be one. -/
def queryOf (arguments : List Argument) : Except UsageError (Option String) :=
  match Argument.operands arguments with
  | [] => .ok none
  | [query] => .ok (some query)
  | _ => .error .extraOperand

/-- The command of a name, with its query and its routes, from the words behind the name. -/
def readCommand (name : String) (words : List String) :
    Except UsageError (Command × Option String × List String) := do
  match name with
  | "analyze" =>
    let (arguments, _) ← Argument.read [{ long := "json" }, routeOption] false none words
    let format := if ← Argument.flagOf "json" arguments then ReportFormat.json else .text
    return (.analyze format, ← queryOf arguments, Argument.valuesOf "table" arguments)
  | "rewrite" =>
    let (arguments, _) ← Argument.read [routeOption] false none words
    return (.shardQuery, ← queryOf arguments, Argument.valuesOf "table" arguments)
  | _ => .error .unknownCommand

/-- The invocation of a command line, with the dialect that the environment asks for. -/
def ofWords (words : List String) (environment : Option String) : Except UsageError Invocation := do
  let (arguments, behind) ← Argument.read commonOptions true none words
  let _ ← Argument.flagOf "verbose" arguments
  let asked ← Argument.valueOf? "dialect" arguments
  match Argument.operands arguments with
  | [] => .error .missingCommand
  | name :: _ =>
    let (command, query, routes) ← readCommand name behind
    return { dialect := ← chooseDialect asked environment, command, query, routes }

end Invocation

end SelectRouting
