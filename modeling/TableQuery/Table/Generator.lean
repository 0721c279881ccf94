import TableQuery.Fault
import TableQuery.Hints
import TableQuery.Row

namespace TableQuery

/-- The rows of a table for the hints of a query, or why there are none. -/
abbrev Generator := Hints → Except SourceFault (List Row)

structure FixedTable where
  rows : List Row
deriving DecidableEq

namespace FixedTable

def rowsOfJson (index : Nat) : List Json → Except SourceFault (List Row)
  | [] => .ok []
  | item :: items =>
    match Row.ofJson? item with
    | none => .error (.failed ("element " ++ toString index ++ " is not a JSON object"))
    | some row => (rowsOfJson (index + 1) items).map (row :: ·)

def ofJson : Json → Except SourceFault FixedTable
  | .array items => (rowsOfJson 0 items).map .mk
  | _ => .error (.failed "expected a JSON array of objects")

def toJson (t : FixedTable) : Json := .array (t.rows.map Row.toJson)

def generate (t : FixedTable) : Generator := fun _ ↦ .ok t.rows

end FixedTable

namespace Generator

def holdsText (column : String) (value : Value) (row : Row) : Bool :=
  (row.get? column).any fun v ↦ Text.sameName v.toText value.toText

/-- Leaves out the rows that do not hold the constant of a column, if the query has one. -/
def lookedUp (column : String) (g : Generator) : Generator := fun hints ↦
  (g hints).map fun rows ↦
    match hints.constant? column with
    | none => rows
    | some value => rows.filter (holdsText column value)

def pruned (g : Generator) : Generator := fun hints ↦
  (g hints).map fun rows ↦ rows.map (·.keep hints.uses)

def failing (fault : SourceFault) : Generator := fun _ ↦ .error fault

end Generator

end TableQuery
