import TableQuery.Entries
import TableQuery.Value.Basic

namespace TableQuery

structure Row where
  columns : List (String × Value)
  nodup : (Entries.names columns).Nodup
deriving DecidableEq

namespace Row

def empty : Row := ⟨[], List.nodup_nil⟩

instance : Inhabited Row := ⟨empty⟩

/-- Sets a column: in place if there is one of exactly this name, else at the end. -/
def insert (row : Row) (name : String) (value : Value) : Row :=
  ⟨Entries.insert name value row.columns, Entries.nodup_insert name value row.nodup⟩

def ofList (columns : List (String × Value)) : Row :=
  columns.foldl (fun row column ↦ row.insert column.1 column.2) empty

/-- The column under a name, in exactly this spelling or else in the first of another casing. -/
def find? (row : Row) (name : String) : Option (String × Value) := Entries.find? name row.columns

def get? (row : Row) (name : String) : Option Value := (row.find? name).map (·.2)

/-- The value under a name; a missing column reads as NULL. -/
def get (row : Row) (name : String) : Value := (row.get? name).getD .null

def resolve? (row : Row) (name : String) : Option String := (row.find? name).map (·.1)

def contains (row : Row) (name : String) : Bool := (row.find? name).isSome

def names (row : Row) : List String := Entries.names row.columns

def size (row : Row) : Nat := row.columns.length

def isEmpty (row : Row) : Bool := row.columns.isEmpty

def keep (row : Row) (p : String → Bool) : Row :=
  ⟨row.columns.filter fun column ↦ p column.1,
    row.nodup.sublist (List.filter_sublist.map _)⟩

def equals (a b : Row) : Bool :=
  a.columns.length == b.columns.length &&
    (a.columns.zip b.columns).all fun (x, y) ↦ x.1 == y.1 && x.2.equals y.2

def toJson (row : Row) : Json := .object (row.columns.map fun (name, value) ↦ (name, value.toJson))

def ofJson? : Json → Option Row
  | .object members => some (ofList (members.map fun (name, j) ↦ (name, Value.ofJson j)))
  | _ => none

end Row

end TableQuery
