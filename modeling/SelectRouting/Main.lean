import SelectRouting.CommandLine.Run

/-!
# The command

Reads the command line, the environment and, where no query is on the command line, the standard
input; writes what the run leaves.
-/

open SelectRouting

/-- Runs the command line. -/
def main (words : List String) : IO UInt32 := do
  let environment ← IO.getEnv "SHARD_SQL_DIALECT"
  let outcome ←
    match Invocation.ofWords words environment with
    | .error _ => pure UsageError.outcome
    | .ok invocation =>
      let input ←
        if invocation.query.isSome then pure "" else (← IO.getStdin).readToEnd
      pure (invocation.run input)
  IO.print outcome.output
  IO.eprint outcome.errors
  return .ofNat outcome.code
