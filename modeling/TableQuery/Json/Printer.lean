import TableQuery.Json.Basic
import TableQuery.Binary64.Decimal

namespace TableQuery.Json

/-- Floating-point numbers have a point or an exponent. Positional from a fifth decimal place to
sixteen digits before the point; an exponent has its sign; a tie goes to the even digit. -/
def floatLayout : Binary64.Layout := ⟨some (-5), some 15, true, true, .toEven⟩

def escape (c : Char) : List Char :=
  match c with
  | '"' => ['\\', '"']
  | '\\' => ['\\', '\\']
  | '\x08' => ['\\', 'b']
  | '\t' => ['\\', 't']
  | '\n' => ['\\', 'n']
  | '\x0c' => ['\\', 'f']
  | '\r' => ['\\', 'r']
  | c =>
    if c.toNat < 0x20 then ['\\', 'u', '0', '0', (c.toNat / 16).digitChar, (c.toNat % 16).digitChar]
    else [c]

def renderText (s : String) : List Char := '"' :: s.toList.flatMap escape ++ ['"']

def renderNumber : Number → List Char
  | .integer n => (if n < 0 then ['-'] else []) ++ Nat.toDigits 10 n.natAbs
  | .float x => if x.isFinite then floatLayout.write x else ['n', 'u', 'l', 'l']

mutual

def render : Json → List Char
  | .null => ['n', 'u', 'l', 'l']
  | .bool true => ['t', 'r', 'u', 'e']
  | .bool false => ['f', 'a', 'l', 's', 'e']
  | .number n => renderNumber n
  | .text s => renderText s
  | .array items => '[' :: renderItems items ++ [']']
  | .object members => '\x7b' :: renderMembers members ++ ['\x7d']

def renderItems : List Json → List Char
  | [] => []
  | [item] => render item
  | item :: items => render item ++ ',' :: renderItems items

def renderMembers : List (String × Json) → List Char
  | [] => []
  | [(key, value)] => renderText key ++ ':' :: render value
  | (key, value) :: members => renderText key ++ ':' :: render value ++ ',' :: renderMembers members

end

/-- What the JSON library is taken to write for a value, as its documentation says. There are no
blanks, and members keep their order. Whole numbers are written in digits, floats in the fewest
digits that are read back as the same float, and a float that is not finite as `null`. In a text
only the quote, the backslash and the controls are escaped. -/
def compact (j : Json) : String := String.ofList j.render

end TableQuery.Json
