import TableQuery.Binary64.Numeral
import TableQuery.Json.Basic
import TableQuery.Json.Printer
import TableQuery.Text.Quoted

namespace TableQuery

inductive Value where
  | null
  | integer (n : Int64)
  | float (x : Binary64)
  | text (s : String)
  | boolean (b : Bool)
deriving DecidableEq

instance : Inhabited Value := ⟨.null⟩

namespace Value

def isNull : Value → Bool
  | .null => true
  | _ => false

def typeName : Value → String
  | .null => "null"
  | .integer _ => "integer"
  | .float _ => "float"
  | .text _ => "text"
  | .boolean _ => "boolean"

def asText? : Value → Option String
  | .text s => some s
  | _ => none

def asInteger? : Value → Option Int64
  | .integer n => some n
  | _ => none

def asBoolean? : Value → Option Bool
  | .boolean b => some b
  | _ => none

def ofCount (n : Nat) : Value := .integer (Int64.ofNat n)

/-- Numbers are written positionally, without a point where none is needed; a tie goes up. -/
def floatLayout : Binary64.Layout := ⟨none, none, false, false, .up⟩

def integerText (n : Int64) : List Char :=
  (if n.toInt < 0 then ['-'] else []) ++ Nat.toDigits 10 n.toInt.natAbs

/-- The canonical text. Grouping, DISTINCT and comparison as text rest on it. -/
def toText : Value → String
  | .null => "NULL"
  | .integer n => String.ofList (integerText n)
  | .float x => String.ofList (floatLayout.write x)
  | .text s => s
  | .boolean true => "true"
  | .boolean false => "false"

/-- Numbers in messages about literals keep a point or an exponent: an exponent below a fourth
decimal place and from seventeen digits on. -/
def literalLayout : Binary64.Layout := ⟨some (-4), some 15, true, false, .up⟩

def describe : Value → String
  | .null => "Null"
  | .integer n => "Integer(" ++ String.ofList (integerText n) ++ ")"
  | .float x => "Float(" ++ String.ofList (literalLayout.write x) ++ ")"
  | .text s => "Text(" ++ Text.quoted s ++ ")"
  | .boolean true => "Boolean(true)"
  | .boolean false => "Boolean(false)"

/-- Equality of values of one type. The two zeros are equal, and what is not a number equals
nothing. -/
def equals : Value → Value → Bool
  | .float x, .float y => x.equals y
  | a, b => a == b

def toJson : Value → Json
  | .null => .null
  | .integer n => .number (.integer n.toInt)
  | .float x => .number (.float x)
  | .text s => .text s
  | .boolean b => .bool b

def ofNumber : Json.Number → Value
  | .integer n =>
    if (Int64.ofInt n).toInt = n then .integer (Int64.ofInt n) else .float (Binary64.ofInt n)
  | .float x => .float x

/-- The value of a JSON document. Cells are flat, so arrays and objects become their text. -/
def ofJson : Json → Value
  | .null => .null
  | .bool b => .boolean b
  | .number n => ofNumber n
  | .text s => .text s
  | j => .text j.compact

end Value

end TableQuery
