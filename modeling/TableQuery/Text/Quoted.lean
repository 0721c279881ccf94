import TableQuery.Text.Printable

namespace TableQuery.Text

def escape (c : Char) : List Char :=
  match c with
  | '\x00' => ['\\', '0']
  | '\t' => ['\\', 't']
  | '\r' => ['\\', 'r']
  | '\n' => ['\\', 'n']
  | '\\' => ['\\', '\\']
  | '"' => ['\\', '"']
  | c =>
    if isPrintable c then [c]
    else ['\\', 'u', '\x7b'] ++ Nat.toDigits 16 c.toNat ++ ['\x7d']

def quoted (s : String) : String := String.ofList ('"' :: s.toList.flatMap escape ++ ['"'])

end TableQuery.Text
