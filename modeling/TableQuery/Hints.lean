import TableQuery.Entries
import TableQuery.Statement

namespace TableQuery

structure Constraint where
  column : String
  op : Comparison
  value : Value
deriving DecidableEq

namespace Constraint

variable {σ : Type}

/-- The constraint that a comparison states. With the literal on the left, the comparison is read
from the right. -/
def ofCompare? (op : Comparison) (left right : Expr σ) : Option Constraint :=
  match left.bare, right.bare with
  | .column column, .literal value => some ⟨column, op, value⟩
  | .literal value, .column column => op.swapped?.map (⟨column, ·, value⟩)
  | _, _ => none

end Constraint

/-- The constraints of a condition, from left to right. Only AND and parentheses are entered: what
stands under OR or NOT need not hold. -/
def Expr.constraints {σ : Type} : Expr σ → List Constraint
  | .and left right => left.constraints ++ right.constraints
  | .paren inner => inner.constraints
  | .compare op left right => (Constraint.ofCompare? op left right).toList
  | _ => []

def insertName (name : String) : List String → List String
  | [] => [name]
  | n :: names =>
    match compare name n with
    | .lt => name :: n :: names
    | .eq => n :: names
    | .gt => n :: insertName name names

def sortNames (names : List String) : List String := names.foldr insertName []

def insertConstant (column : String) (value : Value) : List (String × Value) → List (String × Value)
  | [] => [(column, value)]
  | entry :: entries =>
    match compare column entry.1 with
    | .lt => (column, value) :: entry :: entries
    | .eq => (column, value) :: entries
    | .gt => entry :: insertConstant column value entries

/-- What a table is told about a query before it produces its rows. It may use the hints to save
work; the query is checked on the rows it gets. -/
structure Hints where
  table : String
  /-- The columns that are needed, ascending. An empty list stands for all columns. -/
  required : List String
  constraints : List Constraint
deriving DecidableEq

namespace Hints

def unconstrained (table : String) : Hints := ⟨table, [], []⟩

def columns (s : Statement) : List String :=
  s.select.flatMap SelectItem.columns ++ (s.condition.map Expr.columns).getD [] ++ s.groupBy ++
    s.orderBy.map SortKey.column

def ofStatement (table : String) (s : Statement) : Hints where
  table := table
  required := if s.hasStar then [] else sortNames (columns s)
  constraints := (s.condition.map Expr.constraints).getD []

def uses (h : Hints) (column : String) : Bool :=
  h.required.isEmpty || h.required.any (Text.sameName · column)

/-- The constants of the columns that must equal one, ascending; the last constraint of a column
counts. -/
def constants (h : Hints) : List (String × Value) :=
  (h.constraints.filter (·.op == .eq)).foldl (fun acc c ↦ insertConstant c.column c.value acc) []

def constant? (h : Hints) (column : String) : Option Value :=
  (Entries.find? column h.constants).map (·.2)

def constraintsOn (h : Hints) (column : String) : List Constraint :=
  h.constraints.filter (Text.sameName ·.column column)

end Hints

end TableQuery
