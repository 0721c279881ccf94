import TableQuery.Entries
import TableQuery.Text.Blank
import TableQuery.Text.Quoted

namespace TableQuery

inductive RegistryFault where
  | alreadyRegistered (name : String)
  | invalidName (name : String)
deriving DecidableEq

def RegistryFault.message : RegistryFault → String
  | .alreadyRegistered name => "Table already registered: " ++ name
  | .invalidName name => "Invalid table name: " ++ Text.quoted name

structure Registry (α : Type) where
  tables : List (String × α)

namespace Registry

variable {α : Type}

def empty : Registry α := ⟨[]⟩

def lookup? (r : Registry α) (name : String) : Option α := (Entries.find? name r.tables).map (·.2)

def contains (r : Registry α) (name : String) : Bool := (r.lookup? name).isSome

/-- Registers a table in place: the outcome of the call and the registry after it. A blank name is
refused, and so is a name that is taken in some casing. -/
def add (r : Registry α) (name : String) (table : α) : Except RegistryFault Unit × Registry α :=
  if Text.isBlank name then (.error (.invalidName name), r)
  else if r.contains name then (.error (.alreadyRegistered name), r)
  else (.ok (), ⟨r.tables ++ [(name, table)]⟩)

def register (r : Registry α) (name : String) (table : α) : Except RegistryFault (Registry α) :=
  match r.add name table with
  | (.ok (), r) => .ok r
  | (.error fault, _) => .error fault

def names (r : Registry α) : List String := (Entries.names r.tables).mergeSort (· ≤ ·)

def size (r : Registry α) : Nat := r.tables.length

def isEmpty (r : Registry α) : Bool := r.tables.isEmpty

def describe (r : Registry α) : String :=
  "TableRegistry \x7b tables: [" ++ ", ".intercalate (r.names.map Text.quoted) ++ "] \x7d"

end Registry

end TableQuery
