import TableQuery.Fault
import TableQuery.Row
import TableQuery.Statement
import TableQuery.Value.Order

namespace TableQuery

/-- Whether a value holds as a condition: a true boolean, or a number other than zero. -/
def Value.isTrue : Value → Bool
  | .boolean b => b
  | .null => false
  | v => v.numeric?.any fun x ↦ !x.isZero

/-- Where an expression stands: as a condition of its own, or as an operand. -/
inductive Role where
  | condition
  | operand
deriving DecidableEq

section

variable {σ : Type} {m : Type → Type} [Monad m] [MonadExcept Fault m]

def Comparison.test (like : Value → Value → m Bool) (op : Comparison) (a b : Value) : m Bool :=
  match op with
  | .eq => pure (a.order b == .eq)
  | .notEq => pure (a.order b != .eq)
  | .lt => pure (a.order b == .lt)
  | .ltEq => pure (a.order b != .gt)
  | .gt => pure (a.order b == .gt)
  | .gtEq => pure (a.order b != .lt)
  | .like => like a b
  | .notLike => do pure !(← like a b)

/-- Compares two values; NULL compares with nothing. -/
def Comparison.holds (like : Value → Value → m Bool) (op : Comparison) (a b : Value) : m Bool :=
  if a.isNull || b.isNull then pure false else op.test like a b

namespace Expr

mutual

def value (like : Value → Value → m Bool) (row : Row) : Role → Expr σ → m Value
  | _, .column name => pure (row.get name)
  | _, .literal v => pure v
  | role, .paren inner => inner.value like row role
  | _, .compare op left right => do
    let a ← left.value like row .operand
    let b ← right.value like row .operand
    return .boolean (← op.holds like a b)
  | _, .and left right => do
    let a ← left.value like row .condition
    if a.isTrue then
      let b ← right.value like row .condition
      return .boolean b.isTrue
    else return .boolean false
  | _, .or left right => do
    let a ← left.value like row .condition
    if a.isTrue then return .boolean true
    else
      let b ← right.value like row .condition
      return .boolean b.isTrue
  | _, .not inner => do
    let a ← inner.value like row .condition
    return .boolean !a.isTrue
  | _, .between negated operand low high => do
    let v ← operand.value like row .operand
    let a ← low.value like row .operand
    let b ← high.value like row .operand
    if v.isNull || a.isNull || b.isNull then return .boolean false
    else return .boolean ((v.order a != .lt && v.order b != .gt) != negated)
  | _, .among negated operand items => do
    let v ← operand.value like row .operand
    if v.isNull then return .boolean false
    else
      let found ← anyEqual like row v items
      return .boolean (found != negated)
  | _, .is negated operand test => do
    let v ← operand.value like row .operand
    return .boolean ((v == test.value) != negated)
  | .condition, .call name _ _ => throw (.unsupported (.callInCondition name))
  | .operand, .call name _ _ => throw (.unsupported (.callAsOperand name))
  | .condition, .star => throw (.unsupported .starInCondition)
  | .operand, .star => throw (.unsupported .starAsOperand)
  | _, .subquery _ => throw (.unsupported .subquery)
  | _, .exists _ => throw (.unsupported .exists)

def anyEqual (like : Value → Value → m Bool) (row : Row) (v : Value) : List (Expr σ) → m Bool
  | [] => pure false
  | item :: items => do
    let w ← item.value like row .operand
    if !w.isNull && v.order w == .eq then return true else anyEqual like row v items

end

def holds (like : Value → Value → m Bool) (row : Row) (condition : Expr σ) : m Bool := do
  let v ← condition.value like row .condition
  return v.isTrue

end Expr

end

section

variable [Like.Compiler]

/-- Decides LIKE by compiling the pattern. Values are matched by their canonical text. -/
def Like.test (value pattern : Value) : Except Fault Bool :=
  match Like.Pattern.compile? pattern.toText with
  | some compiled => .ok (compiled.isMatch value.toText)
  | none => .error (.unsupported (.pattern pattern.toText))

def Expr.matches {σ : Type} (row : Row) (condition : Expr σ) : Except Fault Bool :=
  condition.holds Like.test row

end

end TableQuery
