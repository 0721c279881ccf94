import TableQuery.Engine
import TableQuery.Proofs.Binary64.Rounding
import TableQuery.Proofs.Condition.Evaluation
import TableQuery.Proofs.Condition.Expansions
import TableQuery.Proofs.Condition.PatternCache
import TableQuery.Proofs.Condition.Selection
import TableQuery.Proofs.Condition.SharedFilter
import TableQuery.Proofs.Engine.Accounting
import TableQuery.Proofs.Engine.DeclaredColumns
import TableQuery.Proofs.Engine.Padding
import TableQuery.Proofs.Engine.Pagination
import TableQuery.Proofs.Engine.Parentheses
import TableQuery.Proofs.Engine.Requirements
import TableQuery.Proofs.Engine.Stages
import TableQuery.Proofs.Grouping.Aggregation
import TableQuery.Proofs.Grouping.Counts
import TableQuery.Proofs.Grouping.Groups
import TableQuery.Proofs.Grouping.Keys
import TableQuery.Proofs.Grouping.Partition
import TableQuery.Proofs.Grouping.Reordering
import TableQuery.Proofs.Grouping.SameText
import TableQuery.Proofs.Grouping.Totals
import TableQuery.Proofs.Hints.Exactness
import TableQuery.Proofs.Hints.Pruning
import TableQuery.Proofs.Hints.Pushdown
import TableQuery.Proofs.Hints.Recasing
import TableQuery.Proofs.Json.RoundTrip
import TableQuery.Proofs.Json.Strings
import TableQuery.Proofs.Json.WholeNumbers
import TableQuery.Proofs.Like.Cuts
import TableQuery.Proofs.Like.Expression
import TableQuery.Proofs.Log.Lines
import TableQuery.Proofs.Projection.Alignment
import TableQuery.Proofs.Projection.Executable
import TableQuery.Proofs.Projection.LastWriter
import TableQuery.Proofs.Projection.Names
import TableQuery.Proofs.Projection.Ordering
import TableQuery.Proofs.Row.Agreement
import TableQuery.Proofs.Row.History
import TableQuery.Proofs.Row.Insertion
import TableQuery.Proofs.Row.Padding
import TableQuery.Proofs.Sorting.Arrangement
import TableQuery.Proofs.Sorting.Extremes
import TableQuery.Proofs.Sorting.InPlace
import TableQuery.Proofs.Sorting.MergeSort
import TableQuery.Proofs.Sorting.Overtaking
import TableQuery.Proofs.Sorting.Stability
import TableQuery.Proofs.Sorting.Successive
import TableQuery.Proofs.Table.Document
import TableQuery.Proofs.Table.History
import TableQuery.Proofs.Text.ByteOrder
import TableQuery.Proofs.Value.NumericText
import TableQuery.Proofs.Value.Order
import TableQuery.Proofs.Projection.SortColumn
import TableQuery.Proofs.Value.Kinds
