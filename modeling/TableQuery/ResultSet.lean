import TableQuery.Row

namespace TableQuery

structure ResultSet where
  columns : List String
  rows : List Row
deriving DecidableEq

namespace ResultSet

def empty : ResultSet := ⟨[], []⟩

def firstNames : List Row → List String
  | [] => []
  | row :: _ => row.names

def ofRows (rows : List Row) : ResultSet := ⟨firstNames rows, rows⟩

def size (r : ResultSet) : Nat := r.rows.length

def isEmpty (r : ResultSet) : Bool := r.rows.isEmpty

def values (r : ResultSet) (column : String) : List (Option Value) := r.rows.map (·.get? column)

def toJson (r : ResultSet) : Json :=
  .object [("columns", .array (r.columns.map .text)), ("rows", .array (r.rows.map Row.toJson))]

end ResultSet

end TableQuery
