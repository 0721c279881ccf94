import TableQuery.Log.Record

namespace TableQuery

inductive QueryEvent where
  | begin
  | complete
  | failed
  | slow
  | incomplete
deriving DecidableEq

namespace QueryEvent

def name : QueryEvent → String
  | .begin => "QUERY_BEGIN"
  | .complete => "QUERY_COMPLETE"
  | .failed => "QUERY_FAILED"
  | .slow => "QUERY_SLOW"
  | .incomplete => "QUERY_INCOMPLETE"

def severity : QueryEvent → Severity
  | .begin | .complete => .info
  | .slow | .incomplete => .warn
  | .failed => .error

def record (event : QueryEvent) (id table : String) (fields : List (String × String)) : LogRecord :=
  ⟨event.severity, event.name, ("query_id", id) :: ("table", table) :: fields⟩

end QueryEvent

/-- The logging of one query, with the records it has written. -/
structure QueryScope where
  id : String
  table : String
  closed : Bool
  log : List LogRecord
deriving DecidableEq

namespace QueryScope

def emit (s : QueryScope) (event : QueryEvent) (fields : List (String × String)) : QueryScope :=
  { s with log := s.log ++ [event.record s.id s.table fields] }

def begin (id table : String) : QueryScope := (QueryScope.mk id table false []).emit .begin []

def close (s : QueryScope) : QueryScope := { s with closed := true }

/-- What is logged in all when a scope ends, closed or not. -/
def drop (s : QueryScope) : List LogRecord :=
  if s.closed then s.log
  else (s.emit .incomplete [("reason", "scope dropped without completion")]).log

def complete (s : QueryScope) (fields : List (String × String)) (elapsed threshold : Nat) :
    List LogRecord :=
  let s := s.close.emit .complete (fields ++ [("elapsed_ms", toString elapsed)])
  let s := if threshold < elapsed then
      s.emit .slow [("elapsed_ms", toString elapsed), ("threshold_ms", toString threshold)]
    else s
  s.drop

def fail (s : QueryScope) (code reason : String) : List LogRecord :=
  (s.close.emit .failed [("code", code), ("reason", reason)]).drop

end QueryScope

end TableQuery
