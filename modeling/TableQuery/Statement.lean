import TableQuery.Value.Basic

namespace TableQuery

inductive Comparison where
  | eq
  | notEq
  | lt
  | ltEq
  | gt
  | gtEq
  | like
  | notLike
deriving DecidableEq

namespace Comparison

def symbol : Comparison → String
  | .eq => "="
  | .notEq => "!="
  | .lt => "<"
  | .ltEq => "<="
  | .gt => ">"
  | .gtEq => ">="
  | .like => "LIKE"
  | .notLike => "NOT LIKE"

def swapped? : Comparison → Option Comparison
  | .eq => some .eq
  | .notEq => some .notEq
  | .lt => some .gt
  | .ltEq => some .gtEq
  | .gt => some .lt
  | .gtEq => some .ltEq
  | .like => none
  | .notLike => none

end Comparison

inductive Truth where
  | null
  | true
  | false
deriving DecidableEq

def Truth.value : Truth → Value
  | .null => .null
  | .true => .boolean Bool.true
  | .false => .boolean Bool.false

/-- Expressions, where `σ` is the type of the statements inside them. -/
inductive Expr (σ : Type) where
  | column (name : String)
  | literal (value : Value)
  | star
  | compare (op : Comparison) (left right : Expr σ)
  | and (left right : Expr σ)
  | or (left right : Expr σ)
  | not (inner : Expr σ)
  | paren (inner : Expr σ)
  | between (negated : Bool) (operand low high : Expr σ)
  | among (negated : Bool) (operand : Expr σ) (items : List (Expr σ))
  | is (negated : Bool) (operand : Expr σ) (test : Truth)
  | call (name : String) (distinct : Bool) (args : List (Expr σ))
  | subquery (statement : σ)
  | exists (statement : σ)

instance {σ : Type} : Inhabited (Expr σ) := ⟨.star⟩

namespace Expr

variable {σ : Type}

def bare : Expr σ → Expr σ
  | .paren inner => inner.bare
  | e => e

mutual

/-- The names of the columns in an expression, from left to right. Statements inside are not
entered. -/
def columns : Expr σ → List String
  | .column name => [name]
  | .literal _ | .star | .subquery _ | .exists _ => []
  | .compare _ left right | .and left right | .or left right => left.columns ++ right.columns
  | .not inner | .paren inner => inner.columns
  | .between _ operand low high => operand.columns ++ low.columns ++ high.columns
  | .among _ operand items => operand.columns ++ columnsOf items
  | .is _ operand _ => operand.columns
  | .call _ _ args => columnsOf args

def columnsOf : List (Expr σ) → List String
  | [] => []
  | e :: es => e.columns ++ columnsOf es

end

end Expr

inductive SelectItem (σ : Type) where
  | star
  | entry (expr : Expr σ) (label : Option String)

namespace SelectItem

variable {σ : Type}

def isStar : SelectItem σ → Bool
  | .star => true
  | .entry _ _ => false

def columns : SelectItem σ → List String
  | .star => []
  | .entry e _ => e.columns

end SelectItem

inductive Direction where
  | asc
  | desc
deriving DecidableEq

instance : Inhabited Direction := ⟨.asc⟩

def Direction.keyword : Direction → String
  | .asc => "asc"
  | .desc => "desc"

structure SortKey where
  column : String
  direction : Direction
deriving DecidableEq

/-- A SELECT statement. LIMIT and OFFSET are literals of any type; only integers can be executed. -/
structure Statement where
  table : String
  select : List (SelectItem Statement)
  condition : Option (Expr Statement)
  groupBy : List String
  orderBy : List SortKey
  limit : Option Value
  offset : Option Value

namespace Statement

def ofTable (table : String) : Statement := ⟨table, [.star], none, [], [], none, none⟩

instance : Inhabited Statement := ⟨ofTable ""⟩

def hasStar (s : Statement) : Bool := s.select.any SelectItem.isStar

end Statement

end TableQuery
