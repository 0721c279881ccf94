import TableQuery.Entries
import TableQuery.Json.Basic
import TableQuery.Json.Raw

namespace TableQuery.Json

namespace Numeral

open Binary64 (readNat)

def wordSize : Nat := 0x10000000000000000

/-- Appends digits to a number while it fits 64 bits, and counts the digits that are left out. -/
def appendDigits (n : Nat) : List Char → Nat × Nat
  | [] => (n, 0)
  | d :: digits =>
    let next := Nat.ofDigitChars 10 [d] n
    if next < wordSize then appendDigits next digits else (n, digits.length + 1)

def scientific (n : Numeral) : Nat × Int :=
  let (whole, wholeLeft) := appendDigits 0 n.whole
  let (significand, fractionLeft) := appendDigits whole n.fraction
  let exponent : Int := match n.exponent with
    | none => 0
    | some (negative, digits) => if negative then -(readNat digits : Int) else readNat digits
  (significand, wholeLeft - ((n.fraction.length : Int) - fractionLeft) + exponent)

def powerOfTen (n : Nat) : Binary64 := .ofUnits false (Nat.pow 10 n * Binary64.one) 1

def shrink (x : Binary64) : Nat → Nat → Binary64
  | 0, rest => x.div (powerOfTen rest)
  | steps + 1, rest => if x.isZero then x else shrink (x.div (powerOfTen 308)) steps rest

def scale? (x : Binary64) (exponent : Int) : Option Binary64 :=
  if exponent < 0 then
    let steps := (exponent.natAbs - 1) / 308
    some (shrink x steps (exponent.natAbs - 308 * steps))
  else if exponent ≤ 308 then
    let product := x.mul (powerOfTen exponent.toNat)
    if product.isFinite then some product else none
  else if x.isZero then some x
  else none

def float? (n : Numeral) : Option Binary64 :=
  let (significand, exponent) := n.scientific
  (scale? (.ofNat significand) exponent).map fun x ↦ if n.negative then x.neg else x

def number? (n : Numeral) : Option Number :=
  let size := readNat n.whole
  if n.fraction.isEmpty && n.exponent.isNone && !n.negative && size < wordSize then
    some (.integer size)
  else if n.fraction.isEmpty && n.exponent.isNone && n.negative && 0 < size &&
      2 * size ≤ wordSize then
    some (.integer (-size))
  else n.float?.map .float

end Numeral

def isHigh (n : Nat) : Bool := 0xD800 ≤ n && n < 0xDC00

def isLow (n : Nat) : Bool := 0xDC00 ≤ n && n < 0xE000

def joinLetters? (found : List Char) : List Letter → Option (List Char)
  | [] => some found.reverse
  | .plain c :: letters => joinLetters? (c :: found) letters
  | .unit high :: .unit low :: letters =>
    if isHigh high && isLow low then
      joinLetters?
        (Char.ofNat (0x10000 + (high - 0xD800) * 0x400 + (low - 0xDC00)) :: found) letters
    else if isHigh high || isLow high then none
    else joinLetters? (Char.ofNat high :: found) (.unit low :: letters)
  | .unit n :: letters =>
    if isHigh n || isLow n then none else joinLetters? (Char.ofNat n :: found) letters

def string? (letters : List Letter) : Option String :=
  (joinLetters? [] letters).map String.ofList

namespace Raw

mutual

def value? : Raw → Option Json
  | .null => some .null
  | .bool b => some (.bool b)
  | .number n => n.number?.map .number
  | .text letters => (string? letters).map .text
  | .array items => (items? items).map .array
  | .object members => (members? members).map fun members ↦ .object (Entries.ofList members)

def items? : List Raw → Option (List Json)
  | [] => some []
  | item :: items => do
    let item ← item.value?
    let items ← items? items
    some (item :: items)

def members? : List (List Letter × Raw) → Option (List (String × Json))
  | [] => some []
  | (key, value) :: members => do
    let key ← string? key
    let value ← value.value?
    let members ← members? members
    some ((key, value) :: members)

end

end Raw

def maxDepth : Nat := 127

/-- What the JSON library is taken to read from a text, as its documentation says. The whole text is
one value of the JSON grammar with blanks around it, at most 127 levels deep. A whole number of 64
bits is exact; any other number is a float, and one that overflows is refused. Escapes name
characters, two halves of a surrogate pair one of them, and a half alone is refused. Members keep
their order; a repeated key keeps its first place and takes its last value. -/
def parse? (s : String) : Option Json := do
  let raw ← Raw.read? s
  if raw.depth ≤ maxDepth then raw.value? else none

end TableQuery.Json
