import TableQuery.Value.Basic

namespace TableQuery.Value

/-- The number a value reads as. Text counts only if all of it writes a number. -/
def numeric? : Value → Option Binary64
  | .integer n => some (.ofInt n.toInt)
  | .float x => some x
  | .text s => Binary64.read? s.toList
  | .null => none
  | .boolean _ => none

def numericOrder? (a b : Value) : Option Ordering := do
  let x ← a.numeric?
  let y ← b.numeric?
  Binary64.order? x y

def textOrder (a b : Value) : Ordering := compare a.toText b.toText

/-- NULL comes first. Integers compare exactly, and two other values that read as numbers as these
numbers; all else compares by canonical text. -/
def order (a b : Value) : Ordering :=
  match a, b with
  | .null, .null => .eq
  | .null, _ => .lt
  | _, .null => .gt
  | .integer m, .integer n => compare m.toInt n.toInt
  | a, b => (numericOrder? a b).getD (textOrder a b)

end TableQuery.Value
