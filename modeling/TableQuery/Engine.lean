import TableQuery.Config
import TableQuery.Grouping
import TableQuery.Log.QueryLog
import TableQuery.Metrics
import TableQuery.Projection
import TableQuery.RowFilter
import TableQuery.Sorting
import TableQuery.Table.Generator
import TableQuery.Table.Registry
import TableQuery.Window

namespace TableQuery

structure Plan where
  generator : Generator
  hints : Hints
  condition : Option (Expr Statement)
  groupBy : List String
  orderBy : List SortKey
  aggregates : List Aggregate
  projection : Projection
  window : Window

structure Execution where
  table : String
  result : ResultSet
  generated : Nat
  matched : Nat
  limitApplied : Bool
deriving DecidableEq

namespace Execution

def returned (e : Execution) : Nat := e.result.size

end Execution

namespace Plan

/-- Finds the table, then checks the SELECT list, OFFSET and LIMIT. -/
def ofStatement (registry : Registry Generator) (table : String) (s : Statement) :
    Except Fault Plan := do
  match registry.lookup? table with
  | none => throw (.unsupportedTable table)
  | some generator =>
    let aggregates ← Aggregate.ofSelect s.select
    let projection ← Projection.ofSelect s.select aggregates
    let window ← Window.ofLiterals s.limit s.offset
    return ⟨generator, .ofStatement table s, s.condition, s.groupBy, s.orderBy, aggregates,
      projection, window⟩

def generate (p : Plan) : Except Fault (List Row) :=
  match p.generator p.hints with
  | .ok rows => .ok rows
  | .error cause => .error (.sourceFailed p.hints.table cause)

def group (p : Plan) (rows : List Row) : Except Fault (List Row) :=
  if p.aggregates.isEmpty then .ok rows else Grouping.aggregate p.groupBy p.aggregates rows

def sortKeys (p : Plan) : List SortKey :=
  p.orderBy.map fun key ↦ ⟨p.projection.sortColumn key.column, key.direction⟩

def sort (p : Plan) (rows : List Row) : List Row := Sorting.sortRows p.sortKeys rows

def checkSize (maxRows : Option Nat) (result : ResultSet) : Except Fault Unit :=
  match maxRows with
  | none => .ok ()
  | some max => if max < result.size then .error (.tooManyRows result.size max) else .ok ()

section

variable [Like.Compiler]

def finish (p : Plan) (maxRows : Option Nat) (rows : List Row) : Except Fault Execution := do
  let matching ← RowFilter.apply p.condition rows
  let grouped ← p.group matching
  let sorted := p.sort grouped
  let shown := p.window.apply sorted
  let result := p.projection.apply shown
  checkSize maxRows result
  return ⟨p.hints.table, result, rows.length, matching.length, shown.length < sorted.length⟩

def run (p : Plan) (maxRows : Option Nat) : Except Fault Execution := do
  let rows ← p.generate
  p.finish maxRows rows

end

end Plan

def execute [Like.Compiler] (registry : Registry Generator) (config : Config) (table : String)
    (s : Statement) : Except QueryError Execution :=
  match Plan.ofStatement registry table s >>= (·.run config.maxRows) with
  | .ok execution => .ok execution
  | .error fault => .error ((QueryError.ofFault fault).withTable table)

/-- A query put to an engine, with the name it is logged under and the milliseconds it takes. -/
structure Call where
  id : String
  table : String
  statement : Statement
  elapsed : Nat

def Call.ofStatement (id : String) (s : Statement) (elapsed : Nat) : Call :=
  ⟨id, s.table, s, elapsed⟩

/-- How an engine is asked: for a result and what was counted about it, for a result, or for the
result of the table in the FROM clause. -/
inductive Request where
  | execution (c : Call)
  | result (c : Call)
  | fromTable (id : String) (s : Statement) (elapsed : Nat)

inductive Answer where
  | execution (outcome : Except QueryError Execution)
  | result (outcome : Except QueryError ResultSet)

/-- A request, and the tables of the engine with the rows they produce when it is made. -/
structure Occasion where
  tables : Registry Generator
  request : Request

structure Engine where
  registry : Registry Generator
  config : Config
  metrics : Metrics

namespace Engine

def ofRegistry (registry : Registry Generator) (config : Config) : Engine :=
  ⟨registry, config, .zero⟩

variable [Like.Compiler]

def call (engine : Engine) (c : Call) : Except QueryError Execution × Engine × List LogRecord :=
  let scope := if engine.config.logQueries then some (QueryScope.begin c.id c.table) else none
  let outcome := execute engine.registry engine.config c.table c.statement
  match outcome with
  | .ok e =>
    let fields := [("rows_generated", toString e.generated), ("rows_matched", toString e.matched),
      ("rows_returned", toString e.returned)]
    (outcome, { engine with metrics := engine.metrics.success e.generated e.returned },
      scope.elim [] (·.complete fields c.elapsed engine.config.slowThreshold))
  | .error e =>
    (outcome, { engine with metrics := engine.metrics.failure },
      scope.elim [] (·.fail e.fault.code e.fault.message))

def result (engine : Engine) (c : Call) : Except QueryError ResultSet × Engine × List LogRecord :=
  let (outcome, rest) := engine.call c
  (outcome.map (·.result), rest)

def resultFromTable (engine : Engine) (id : String) (s : Statement) (elapsed : Nat) :
    Except QueryError ResultSet × Engine × List LogRecord :=
  engine.result (.ofStatement id s elapsed)

def answer (engine : Engine) : Request → Answer × Engine × List LogRecord
  | .execution c =>
    let (outcome, rest) := engine.call c
    (.execution outcome, rest)
  | .result c =>
    let (outcome, rest) := engine.result c
    (.result outcome, rest)
  | .fromTable id s elapsed =>
    let (outcome, rest) := engine.resultFromTable id s elapsed
    (.result outcome, rest)

/-- The answers to requests one after another, the engine after them, and all that was logged. -/
def run (engine : Engine) : List Occasion → List Answer × Engine × List LogRecord
  | [] => ([], engine, [])
  | o :: occasions =>
    let (answer, engine, log) := { engine with registry := o.tables }.answer o.request
    let (answers, engine, log') := engine.run occasions
    (answer :: answers, engine, log ++ log')

end Engine

end TableQuery
