import SelectRouting.Number.Binary64
import SelectRouting.Text.Alphabetic
import SelectRouting.Text.Blank
import SelectRouting.Text.Bytes
import SelectRouting.Text.Case
import SelectRouting.Text.Quoted
import SelectRouting.Text.Quotes
import SelectRouting.Token.Description
import SelectRouting.Token.Scan
import SelectRouting.Step
import SelectRouting.Expr.Parser
import SelectRouting.Scan.Alias
import SelectRouting.Scan.Join
import SelectRouting.Analysis.State
import SelectRouting.Dialect
import SelectRouting.Analysis.Select
import SelectRouting.Report.Summary
import SelectRouting.Splicing
import SelectRouting.Main
import SelectRouting.Proofs.EditPlacement
import SelectRouting.Proofs.TrackedNames
import SelectRouting.Proofs.Numbering
import SelectRouting.Proofs.Placeholders
import SelectRouting.Proofs.InsertedOwners
import SelectRouting.Proofs.ShardAnalysis
import SelectRouting.Proofs.AddedAgain
import SelectRouting.Proofs.DerivedAliases
import SelectRouting.Proofs.NamedColumns
import SelectRouting.Proofs.Subqueries
import SelectRouting.Proofs.KeyReferences
import SelectRouting.Proofs.DialectExtension
import SelectRouting.Proofs.CaseIndependence
import SelectRouting.Proofs.Layout
import SelectRouting.Proofs.ContentIndependence
import SelectRouting.Proofs.Replacement
import SelectRouting.Proofs.SetOperations
import SelectRouting.Proofs.DecodedNames
import SelectRouting.Proofs.PiecewiseSplicing
import SelectRouting.Proofs.RepeatedEdits
import SelectRouting.Proofs.ExpressionCompleteness
import SelectRouting.Proofs.ExpressionEnds
import SelectRouting.Proofs.ProjectedExpressions
import SelectRouting.Proofs.SpacedTokens
import SelectRouting.Proofs.Literals
import SelectRouting.Proofs.InsertedComments
import SelectRouting.Proofs.TrailingOffset
import SelectRouting.Proofs.ExpressionExtents
import SelectRouting.Proofs.SkippedGroups
import SelectRouting.Proofs.CursorRuns
import SelectRouting.Proofs.ErrorPlaces
