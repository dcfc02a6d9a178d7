import ChainQuery.Main
import ChainQuery.Compile.TypeTable
import ChainQuery.Schema.Shop
import ChainQuery.Proofs.Expr.Children
import ChainQuery.Proofs.Evaluate.Meaning
import ChainQuery.Proofs.Sql.Placeholders
import ChainQuery.Proofs.Compile.Binding
import ChainQuery.Proofs.Compile.ScalarMeaning
import ChainQuery.Proofs.Sql.Scoping
import ChainQuery.Proofs.Compile.Selection
import ChainQuery.Proofs.Compile.WellScoped
import ChainQuery.Proofs.Schema.Validated
import ChainQuery.Proofs.Compile.Gathering
import ChainQuery.Proofs.Compile.NavigationKeys
import ChainQuery.Proofs.Compile.Correlation
import ChainQuery.Proofs.Compile.Reads
import ChainQuery.Proofs.Expr.Strings
import ChainQuery.Proofs.Sql.Parameters
import ChainQuery.Proofs.Related
import ChainQuery.Proofs.Schema.Within
import ChainQuery.Proofs.Coupling.Basic
import ChainQuery.Proofs.Coupling.Reading
import ChainQuery.Proofs.Coupling.Gathering
import ChainQuery.Proofs.Coupling.Selection
import ChainQuery.Proofs.Coupling.Renaming
import ChainQuery.Proofs.Compile.StringConstants
import ChainQuery.Proofs.Compile.AddedProjection
import ChainQuery.Proofs.Compile.Recording
import ChainQuery.Proofs.Sql.Outputs
import ChainQuery.Proofs.Compile.SideColumns
import ChainQuery.Proofs.Compile.DerivedColumns
import ChainQuery.Proofs.Sql.Nesting
import ChainQuery.Proofs.Query.Chain
import ChainQuery.Proofs.Compile.Chains
import ChainQuery.Proofs.Compile.Nodes
import ChainQuery.Proofs.Compile.Orderings
import ChainQuery.Proofs.Compile.SideOrderings
import ChainQuery.Proofs.Compile.Operators
import ChainQuery.Proofs.Compile.BareColumns
import ChainQuery.Proofs.Compile.Scopes
import ChainQuery.Proofs.Compile.SourceNames
import ChainQuery.Proofs.Sql.StableSort
import ChainQuery.Proofs.Compile.SortedRows
import ChainQuery.Proofs.Compile.AggregateDepth
import ChainQuery.Proofs.Compile.Unbounded
import ChainQuery.Proofs.Compile.Termination
import ChainQuery.Proofs.Session.Basic
import ChainQuery.Proofs.Session.Compiler
import ChainQuery.Proofs.Session.Gathering
import ChainQuery.Proofs.Session.Selection
import ChainQuery.Proofs.Session.History
import ChainQuery.Proofs.Compile.LikePatterns
import ChainQuery.Proofs.Sql.Reader
import ChainQuery.Proofs.Sql.Unambiguous
import ChainQuery.Proofs.Compile.RecordMembers
import ChainQuery.Proofs.Expr.Conversions
import ChainQuery.Proofs.Compile.ScalarConversions
import ChainQuery.Proofs.Compile.ClauseOrder
import ChainQuery.Proofs.Compile.ReadingLaws
import ChainQuery.Proofs.Compile.Scalars
import ChainQuery.Proofs.Query.RowNames
import ChainQuery.Proofs.Compile.Metadata
import ChainQuery.Proofs.Compile.Aggregates
import ChainQuery.Proofs.Expr.Names
import ChainQuery.Proofs.Compile.ParameterNames
import ChainQuery.Proofs.Evaluate.ConstantRecords
import ChainQuery.Proofs.Compile.ConstantRecords
import ChainQuery.Proofs.Compile.MoreRowTypes
import ChainQuery.Proofs.Evaluate.Folding
import ChainQuery.Proofs.Evaluate.Failure
import ChainQuery.Proofs.Evaluate.Idempotence
import ChainQuery.Proofs.Query.Traversal
import ChainQuery.Proofs.Evaluate.Types
import ChainQuery.Proofs.Compile.AggregateChains
import ChainQuery.Proofs.Query.ReadBack
import ChainQuery.Proofs.Config.ReadBack
import ChainQuery.Proofs.Evaluate.Integers
import ChainQuery.Proofs.Evaluate.Sums
import ChainQuery.Proofs.Decimal.Value
import ChainQuery.Proofs.Evaluate.IntegralConversions
import ChainQuery.Proofs.Compile.Substrings
import ChainQuery.Proofs.Compile.ReadingRules
import ChainQuery.Proofs.Compile.NullComparisons
import ChainQuery.Proofs.Compile.Substitution
import ChainQuery.Proofs.Evaluate.Nomination
import ChainQuery.Proofs.Session.Identifiers
import ChainQuery.Proofs.Compile.Equality
import ChainQuery.Proofs.Compile.RecordedColumns
