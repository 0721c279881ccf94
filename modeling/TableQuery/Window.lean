import TableQuery.Fault

namespace TableQuery

structure Window where
  offset : Nat
  limit : Option Nat
deriving DecidableEq

namespace Window

def integer (clause : String) : Value → Except Fault Int64
  | .integer n => .ok n
  | v => .error (.invalidLimit clause v)

/-- The window of two literals. A negative OFFSET leaves nothing out, and a negative LIMIT is no
limit. -/
def ofLiterals (limit offset : Option Value) : Except Fault Window := do
  let offset ← match offset with
    | none => pure 0
    | some v => (·.toInt.toNat) <$> integer "OFFSET" v
  let limit ← match limit with
    | none => pure none
    | some v => (fun n ↦ if n.toInt < 0 then none else some n.toInt.toNat) <$> integer "LIMIT" v
  return ⟨offset, limit⟩

def isBounded (w : Window) : Bool := w.offset > 0 || w.limit.isSome

variable {α : Type}

def apply (w : Window) (rows : List α) : List α :=
  let rows := rows.drop w.offset
  match w.limit with
  | none => rows
  | some n => rows.take n

end Window

end TableQuery
