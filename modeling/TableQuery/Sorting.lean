import TableQuery.Row
import TableQuery.Statement
import TableQuery.Value.Order

namespace TableQuery

namespace Sorting

variable {α : Type}

/-- Sorts both halves and merges them. The right half comes first only where it is less. The order
of values is not transitive, so the result depends on this method. -/
def mergeSort (cmp : α → α → Ordering) (l : List α) : List α :=
  if l.length ≤ 1 then l
  else
    List.merge (mergeSort cmp (l.take (l.length / 2))) (mergeSort cmp (l.drop (l.length / 2)))
      fun a b ↦ cmp b a != .lt
termination_by l.length
decreasing_by
  · simp only [List.length_take]; omega
  · simp only [List.length_drop]; omega

end Sorting

def SortKey.order (key : SortKey) (a b : Row) : Ordering :=
  match key.direction with
  | .asc => (a.get key.column).order (b.get key.column)
  | .desc => ((a.get key.column).order (b.get key.column)).swap

namespace Sorting

def rowOrder : List SortKey → Row → Row → Ordering
  | [], _, _ => .eq
  | key :: keys, a, b => (key.order a b).then (rowOrder keys a b)

def sortRows (keys : List SortKey) (rows : List Row) : List Row :=
  if keys.isEmpty then rows else mergeSort (rowOrder keys) rows

end Sorting

end TableQuery
