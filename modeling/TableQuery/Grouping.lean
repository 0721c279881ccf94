import TableQuery.Aggregate

namespace TableQuery

abbrev GroupKey := List (Option String)

namespace Grouping

/-- What a row holds in a GROUP BY column. NULL is not the text `NULL`. -/
def cellKey (row : Row) (column : String) : Option String :=
  ((row.get? column).filter (!·.isNull)).map Value.toText

def key (columns : List String) (row : Row) : GroupKey := columns.map (cellKey row)

def addRow (key : GroupKey) (row : Row) : List (GroupKey × List Row) → List (GroupKey × List Row)
  | [] => [(key, [row])]
  | group :: groups =>
    if group.1 = key then (group.1, group.2 ++ [row]) :: groups
    else group :: addRow key row groups

def groups (columns : List String) (rows : List Row) : List (GroupKey × List Row) :=
  rows.foldl (fun groups row ↦ addRow (key columns row) row groups) []

def keyRow (columns : List String) : List Row → Row
  | [] => .empty
  | first :: _ => columns.foldl (fun row column ↦ row.insert column (first.get column)) .empty

def addAggregate (rows : List Row) (row : Row) (a : Aggregate) : Except Fault Row := do
  let value ← a.compute rows
  return row.insert a.key value

def groupRow (columns : List String) (aggregates : List Aggregate) (rows : List Row) :
    Except Fault Row :=
  aggregates.foldlM (addAggregate rows) (keyRow columns rows)

/-- The rows of all groups. No rows at all make one group without key columns. A GROUP BY column
must be present in some row. -/
def aggregate (columns : List String) (aggregates : List Aggregate) (rows : List Row) :
    Except Fault (List Row) :=
  if rows.isEmpty then do
    let row ← groupRow [] aggregates []
    return [row]
  else
    match columns.find? fun column ↦ !rows.any (·.contains column) with
    | some column => .error (.missingGroupColumn column)
    | none => (groups columns rows).mapM fun group ↦ groupRow columns aggregates group.2

end Grouping

end TableQuery
