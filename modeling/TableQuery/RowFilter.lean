import TableQuery.Condition

namespace TableQuery

/-- The LIKE patterns compiled so far. A filter keeps them, whether or not a condition fails. -/
abbrev PatternCache := List (String × Like.Pattern)

/-- Evaluation with a cache that outlives a fault. -/
abbrev RowFilter := ExceptT Fault (StateM PatternCache)

namespace RowFilter

variable [Like.Compiler]

def like (value pattern : Value) : RowFilter Bool := do
  match (← get).lookup pattern.toText with
  | some compiled => return compiled.isMatch value.toText
  | none =>
    match Like.Pattern.compile? pattern.toText with
    | some compiled =>
      modify ((pattern.toText, compiled) :: ·)
      return compiled.isMatch value.toText
    | none => throw (.unsupported (.pattern pattern.toText))

variable {σ : Type}

def evaluate (row : Row) (condition : Expr σ) : RowFilter Bool := condition.holds like row

def keep (condition : Expr σ) : List Row → RowFilter (List Row)
  | [] => return []
  | row :: rows => do
    let holds ← evaluate row condition
    let kept ← keep condition rows
    return if holds then row :: kept else kept

def apply (condition : Option (Expr σ)) (rows : List Row) : Except Fault (List Row) :=
  match condition with
  | none => .ok rows
  | some condition => ((keep condition rows).run.run []).1

end RowFilter

end TableQuery
