import TableQuery.Aggregate
import TableQuery.ResultSet

namespace TableQuery

inductive Output where
  | all
  | single (source name : String)
deriving DecidableEq

structure Projection where
  outputs : List Output
deriving DecidableEq

namespace Projection

variable {σ : Type}

/-- The outputs of a SELECT list, whose calls take the aggregates one after another. -/
def outputsOf : List (SelectItem σ) → List Aggregate → Except Fault (List Output)
  | [], _ => .ok []
  | .star :: items, aggregates => (outputsOf items aggregates).map (.all :: ·)
  | .entry (.column source) label :: items, aggregates =>
    (outputsOf items aggregates).map (.single source (label.getD source) :: ·)
  | .entry (.call name _ _) _ :: items, aggregates =>
    match aggregates with
    | [] => .error (.unsupported (.call name))
    | a :: aggregates => (outputsOf items aggregates).map (.single a.key a.shownName :: ·)
  | .entry _ _ :: _, _ => .error (.unsupported .selectEntry)

def ofSelect (items : List (SelectItem σ)) (aggregates : List Aggregate) :
    Except Fault Projection := (outputsOf items aggregates).map .mk

def isIdentity (p : Projection) : Bool := p.outputs.all (· == .all)

/-- The column that is sorted by for a name: the source of the output of this name in any casing,
else the column of the name itself. -/
def sortColumn (p : Projection) (name : String) : String :=
  (p.outputs.findSome? fun
    | .single source shown => if Text.sameName shown name then some source else none
    | .all => none).getD name

def addOutput (row out : Row) : Output → Row
  | .all => row.columns.foldl (fun out column ↦ out.insert column.1 column.2) out
  | .single source name =>
    match row.get? source with
    | some value => out.insert name value
    | none => out

def projectRow (p : Projection) (row : Row) : Row := p.outputs.foldl (addOutput row) .empty

def addName (names : List String) (name : String) : List String :=
  if name ∈ names then names else names ++ [name]

/-- Adds the names of an output, where a star has the columns of the first row. -/
def addNames (rows : List Row) (names : List String) : Output → List String
  | .all => (ResultSet.firstNames rows).foldl addName names
  | .single _ name => addName names name

def columns (p : Projection) (rows : List Row) : List String :=
  p.outputs.foldl (addNames rows) []

def apply (p : Projection) (rows : List Row) : ResultSet :=
  if p.isIdentity then .ofRows rows else ⟨p.columns rows, rows.map p.projectRow⟩

end Projection

end TableQuery
