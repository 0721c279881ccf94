import TableQuery.Binary64.Decimal

namespace TableQuery.Binary64

def readSign : List Char → Bool × List Char
  | '-' :: rest => (true, rest)
  | '+' :: rest => (false, rest)
  | rest => (false, rest)

def readNat (digits : List Char) : Nat := Nat.ofDigitChars 10 digits 0

def spanDigits (s : List Char) : List Char × List Char :=
  (s.takeWhile Char.isDigit, s.dropWhile Char.isDigit)

def readExponent? : List Char → Option Int
  | [] => some 0
  | e :: rest =>
    let (negative, digits) := readSign rest
    if (e == 'e' || e == 'E') && !digits.isEmpty && digits.all Char.isDigit then
      some (if negative then -(readNat digits : Int) else readNat digits)
    else none

/-- The decimal written by a text without a sign. A digit must stand on one side of the point. -/
def readDecimal? (s : List Char) : Option Decimal :=
  let (whole, rest) := spanDigits s
  let (fraction, rest) := match rest with
    | '.' :: rest => spanDigits rest
    | rest => ([], rest)
  if whole.isEmpty && fraction.isEmpty then none
  else (readExponent? rest).map fun e ↦ ⟨readNat (whole ++ fraction), e - fraction.length⟩

def read? (s : List Char) : Option Binary64 :=
  let (negative, rest) := readSign s
  let word := rest.map Char.toLower
  if word = ['i', 'n', 'f'] ∨ word = ['i', 'n', 'f', 'i', 'n', 'i', 't', 'y'] then
    some (infinity negative)
  else if word = ['n', 'a', 'n'] then some .nan
  else (readDecimal? rest).map (ofDecimal negative)

end TableQuery.Binary64
