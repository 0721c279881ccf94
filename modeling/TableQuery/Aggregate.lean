import TableQuery.Fault
import TableQuery.Row
import TableQuery.Statement
import TableQuery.Value.Order

namespace TableQuery

inductive AggregateKind where
  | count
  | sum
  | avg
  | min
  | max
deriving DecidableEq

namespace AggregateKind

def name : AggregateKind → String
  | .count => "COUNT"
  | .sum => "SUM"
  | .avg => "AVG"
  | .min => "MIN"
  | .max => "MAX"

def ofName? (name : String) : Option AggregateKind :=
  [count, sum, avg, min, max].find? (Text.sameName ·.name name)

end AggregateKind

/-- An aggregate call. Counting rows has the column `*`. -/
structure Aggregate where
  kind : AggregateKind
  column : String
  shownName : String
  distinct : Bool
  /-- The column of a grouped row that holds the value. -/
  key : String
deriving DecidableEq

namespace Aggregate

def keyOf (kind : AggregateKind) (column : String) (distinct : Bool) : String :=
  kind.name ++ (if distinct then "(DISTINCT " else "(") ++ column ++ ")"

/-- An aggregate under the key of its call. It is shown under its label, or else under the key. -/
def new (kind : AggregateKind) (column : String) (distinct : Bool) (label : Option String) :
    Aggregate :=
  let key := keyOf kind column distinct
  ⟨kind, column, label.getD key, distinct, key⟩

section

variable (kind : AggregateKind) (column : String) (distinct : Bool) (label : Option String)

@[simp]
theorem kind_new : (new kind column distinct label).kind = kind := rfl

@[simp]
theorem column_new : (new kind column distinct label).column = column := rfl

@[simp]
theorem distinct_new : (new kind column distinct label).distinct = distinct := rfl

end

def countsRows (a : Aggregate) : Bool := a.kind == .count && a.column == "*"

variable {σ : Type}

def column? (kind : AggregateKind) (args : List (Expr σ)) : Option String :=
  match kind, args with
  | .count, [] => some "*"
  | .count, [.star] => some "*"
  | _, [.column name] => some name
  | _, _ => none

def ofCall (name : String) (distinct : Bool) (args : List (Expr σ)) (label : Option String) :
    Except Fault Aggregate :=
  match AggregateKind.ofName? name with
  | none => .error (.unsupported (.call name))
  | some kind =>
    match column? kind args with
    | none => .error (.unsupported (.arguments kind.name))
    | some column => .ok (.new kind column distinct label)

def ofSelect : List (SelectItem σ) → Except Fault (List Aggregate)
  | [] => .ok []
  | .entry (.call name distinct args) label :: items => do
    let aggregate ← ofCall name distinct args label
    let aggregates ← ofSelect items
    return aggregate :: aggregates
  | _ :: items => ofSelect items

def firstOfEachText (seen : List String) : List Value → List Value
  | [] => []
  | v :: values =>
    if v.toText ∈ seen then firstOfEachText seen values
    else v :: firstOfEachText (v.toText :: seen) values

/-- The values that an aggregate reads: those that are present and not NULL, each text once if the
aggregate is DISTINCT. -/
def values (a : Aggregate) (rows : List Row) : List Value :=
  let present := (rows.filterMap (·.get? a.column)).filter (!·.isNull)
  if a.distinct then firstOfEachText [] present else present

def addTo (a : Aggregate) (sum : Binary64) (v : Value) : Except Fault Binary64 :=
  match v.numeric? with
  | some x => .ok (sum.add x)
  | none => .error (.notNumeric a.kind.name a.column v)

def total (a : Aggregate) (values : List Value) : Except Fault Binary64 :=
  values.foldlM a.addTo .zero

/-- The least value, the first of equal ones. -/
def least : List Value → Value
  | [] => .null
  | v :: values => values.foldl (fun m w ↦ if m.order w == .gt then w else m) v

/-- The greatest value, the last of equal ones. -/
def greatest : List Value → Value
  | [] => .null
  | v :: values => values.foldl (fun m w ↦ if m.order w == .gt then m else w) v

def compute (a : Aggregate) (rows : List Row) : Except Fault Value :=
  if a.countsRows then .ok (.ofCount rows.length)
  else
    let values := a.values rows
    match a.kind with
    | .count => .ok (.ofCount values.length)
    | .sum => (a.total values).map .float
    | .avg => (a.total values).map fun sum ↦
      if values.isEmpty then .float .zero else .float (sum.div (.ofNat values.length))
    | .min => .ok (least values)
    | .max => .ok (greatest values)

end Aggregate

end TableQuery
