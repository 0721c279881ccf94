import TableQuery.Json.Printer

namespace TableQuery

inductive Severity where
  | info
  | warn
  | error
deriving DecidableEq

namespace Severity

def name : Severity → String
  | .info => "INFO"
  | .warn => "WARN"
  | .error => "ERROR"

def isAtLeastWarn : Severity → Bool
  | .info => false
  | .warn | .error => true

end Severity

structure LogRecord where
  severity : Severity
  event : String
  fields : List (String × String)
deriving DecidableEq

namespace LogRecord

def sortedFields (r : LogRecord) : List (String × String) := r.fields.mergeSort fun a b ↦ a.1 ≤ b.1

def fieldText (field : String × String) : String :=
  "," ++ (Json.text field.1).compact ++ ":" ++ (Json.text field.2).compact

/-- A line is put together from its parts. The event and the fields are written as JSON texts, and
the severity as it is. -/
def line (r : LogRecord) : String :=
  "\x7b\"event\":" ++ (Json.text r.event).compact ++
    ",\"severity\":\"" ++ r.severity.name ++ "\"" ++
    String.join (r.sortedFields.map fieldText) ++ "\x7d\n"

end LogRecord

end TableQuery
