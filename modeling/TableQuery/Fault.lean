import TableQuery.Like
import TableQuery.Value.Basic

namespace TableQuery

inductive SourceFault where
  | io (detail : String)
  | unavailable (detail : String)
  | failed (detail : String)
deriving DecidableEq

def SourceFault.message : SourceFault → String
  | .io detail => "I/O error: " ++ detail
  | .unavailable detail => "Source unavailable: " ++ detail
  | .failed detail => "Generation failed: " ++ detail

inductive Unsupported where
  | callInCondition (name : String)
  | callAsOperand (name : String)
  | starInCondition
  | starAsOperand
  | subquery
  | exists
  | pattern (text : String)
  | call (name : String)
  | arguments (aggregate : String)
  | selectEntry
  | other (what : String)
deriving DecidableEq

def Unsupported.message : Unsupported → String
  | .callInCondition name => "function " ++ name ++ "() in WHERE"
  | .callAsOperand name => "function " ++ name ++ "() as an operand"
  | .starInCondition => "* in WHERE"
  | .starAsOperand => "* as an operand"
  | .subquery => "subquery"
  | .exists => "EXISTS"
  | .pattern text => "LIKE pattern '" ++ text ++ "': " ++ Like.tooLarge
  | .call name => "function " ++ name ++ "()"
  | .arguments aggregate => aggregate ++ " arguments"
  | .selectEntry => "SELECT list entries must be columns, * or aggregate calls"
  | .other what => what

inductive Fault where
  | unsupportedTable (table : String)
  | unsupported (what : Unsupported)
  | invalidLimit (clause : String) (literal : Value)
  | notNumeric (aggregate column : String) (value : Value)
  | missingGroupColumn (column : String)
  | sourceFailed (table : String) (cause : SourceFault)
  | tooManyRows (rows max : Nat)
deriving DecidableEq

namespace Fault

def code : Fault → String
  | .unsupportedTable _ => "LQ_UNSUPPORTED_TABLE"
  | .unsupported _ => "LQ_UNSUPPORTED_EXPRESSION"
  | .invalidLimit _ _ => "LQ_INVALID_LIMIT"
  | .notNumeric _ _ _ => "LQ_TYPE_ERROR"
  | .missingGroupColumn _ => "LQ_MISSING_GROUP_COLUMN"
  | .sourceFailed _ _ => "LQ_GENERATOR_FAILED"
  | .tooManyRows _ _ => "LQ_RESULT_LIMIT"

/-- Whether the statement itself is refused, whatever the data. -/
def isRejection : Fault → Bool
  | .unsupportedTable _ | .unsupported _ | .invalidLimit _ _ => true
  | .notNumeric _ _ _ | .missingGroupColumn _ | .sourceFailed _ _ | .tooManyRows _ _ => false

def severity (f : Fault) : String := if f.isRejection then "REJECT" else "ERROR"

def message : Fault → String
  | .unsupportedTable table => "unsupported table '" ++ table ++ "'"
  | .unsupported what => "unsupported expression: " ++ what.message
  | .invalidLimit clause literal =>
    clause ++ " must be an integer literal, got " ++ literal.describe
  | .notNumeric aggregate column value =>
    aggregate ++ "(" ++ column ++ ") requires numeric values, got '" ++ value.toText ++ "'"
  | .missingGroupColumn column => "GROUP BY column '" ++ column ++ "' not present in any row"
  | .sourceFailed table cause =>
    "generator for table '" ++ table ++ "' failed: " ++ cause.message
  | .tooManyRows rows max =>
    "result has " ++ toString rows ++ " rows, maximum is " ++ toString max

def table? : Fault → Option String
  | .unsupportedTable table => some table
  | .sourceFailed table _ => some table
  | _ => none

def source? : Fault → Option SourceFault
  | .sourceFailed _ cause => some cause
  | _ => none

end Fault

structure QueryError where
  fault : Fault
  table : Option String
deriving DecidableEq

namespace QueryError

def ofFault (fault : Fault) : QueryError := ⟨fault, fault.table?⟩

def withTable (e : QueryError) (table : String) : QueryError :=
  { e with table := e.table.or (some table) }

def display (e : QueryError) : String :=
  "[" ++ e.fault.severity ++ "] " ++ e.fault.code ++ ": " ++ e.fault.message

end QueryError

end TableQuery
