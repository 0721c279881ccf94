import TableQuery.Json.Meaning

namespace TableQuery

inductive ConfigFault where
  | unreadable
  | invalid
deriving DecidableEq

def ConfigFault.message : ConfigFault → String
  | .unreadable => "Failed to read config file"
  | .invalid => "Invalid config"

structure Config where
  logQueries : Bool
  /-- A query that takes longer, in milliseconds, is logged as slow. -/
  slowThreshold : Nat
  maxRows : Option Nat
deriving DecidableEq

namespace Config

def default : Config := ⟨false, 1000, none⟩

instance : Inhabited Config := ⟨default⟩

def withLogging (c : Config) : Config := { c with logQueries := true }

def withMaxRows (c : Config) (rows : Nat) : Config := { c with maxRows := some rows }

end Config

inductive Setting where
  | logQueries
  | slowThreshold
  | maxRows
deriving DecidableEq

namespace Setting

def all : List Setting := [.logQueries, .slowThreshold, .maxRows]

def key : Setting → String
  | .logQueries => "log_queries"
  | .slowThreshold => "slow_query_threshold_ms"
  | .maxRows => "max_result_rows"

def ofKey? (key : String) : Option Setting := all.find? (·.key == key)

theorem ofKey?_key (s : Setting) : ofKey? s.key = some s := by cases s <;> decide

end Setting

namespace Config

open Json

/-- A natural of 64 bits, written without a sign, a point or an exponent. -/
def natural? : Raw → Option Nat
  | .number n =>
    match n.number? with
    | some (.integer i) => if i < 0 then none else some i.toNat
    | _ => none
  | _ => none

def set? (c : Config) : Setting → Raw → Option Config
  | .logQueries, .bool b => some { c with logQueries := b }
  | .logQueries, _ => none
  | .slowThreshold, raw => (natural? raw).map fun n ↦ { c with slowThreshold := n }
  | .maxRows, .null => some { c with maxRows := none }
  | .maxRows, raw => (natural? raw).map fun n ↦ { c with maxRows := some n }

def setItems? (c : Config) : List Setting → List Raw → Option Config
  | _, [] => some c
  | [], _ :: _ => none
  | s :: settings, raw :: items => do setItems? (← c.set? s raw) settings items

/-- Sets the settings that the members of an object name, none twice; `unset` holds the others. -/
def setMembers? (c : Config) (unset : List Setting) : List (List Letter × Raw) → Option Config
  | [] => some c
  | (key, raw) :: members => do
    match Setting.ofKey? (← string? key) with
    | none => setMembers? c unset members
    | some s =>
      if s ∈ unset then setMembers? (← c.set? s raw) (unset.erase s) members else none

def ofText (document : String) : Except ConfigFault Config :=
  let config? := match Raw.read? document with
    | some (.object members) => setMembers? default Setting.all members
    | some (.array items) => setItems? default Setting.all items
    | _ => none
  match config? with
  | some config => .ok config
  | none => .error .invalid

def load (file : Option ByteArray) : Except ConfigFault Config :=
  match file.bind String.fromUTF8? with
  | some document => ofText document
  | none => .error .unreadable

end Config

end TableQuery
