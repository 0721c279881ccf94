import TableQuery.Binary64.Numeral

namespace TableQuery.Json

structure Numeral where
  negative : Bool
  whole : List Char
  fraction : List Char
  exponent : Option (Bool × List Char)
deriving DecidableEq

/-- What a string holds at one place: a character, or a unit of sixteen bits named by an escape. -/
inductive Letter where
  | plain (c : Char)
  | unit (n : Nat)
deriving DecidableEq

inductive Raw where
  | null
  | bool (b : Bool)
  | number (n : Numeral)
  | text (letters : List Letter)
  | array (items : List Raw)
  | object (members : List (List Letter × Raw))

instance : Inhabited Raw := ⟨.null⟩

namespace Raw

open Binary64 (readSign readNat spanDigits)

def isBlank (c : Char) : Bool := c == ' ' || c == '\n' || c == '\t' || c == '\r'

def skipBlank (s : List Char) : List Char := s.dropWhile isBlank

def hexValue? (c : Char) : Option Nat :=
  if c.isDigit then some (c.toNat - '0'.toNat)
  else if 'a' ≤ c ∧ c ≤ 'f' then some (c.toNat - 'a'.toNat + 10)
  else if 'A' ≤ c ∧ c ≤ 'F' then some (c.toNat - 'A'.toNat + 10)
  else none

def unit? (a b c d : Char) : Option Letter := do
  let a ← hexValue? a
  let b ← hexValue? b
  let c ← hexValue? c
  let d ← hexValue? d
  some (.unit (((a * 16 + b) * 16 + c) * 16 + d))

def escaped? : Char → Option Letter
  | '"' => some (.plain '"')
  | '\\' => some (.plain '\\')
  | '/' => some (.plain '/')
  | 'b' => some (.plain '\x08')
  | 'f' => some (.plain '\x0c')
  | 'n' => some (.plain '\n')
  | 'r' => some (.plain '\r')
  | 't' => some (.plain '\t')
  | _ => none

def readText? (letters : List Letter) : List Char → Option (List Letter × List Char)
  | [] => none
  | '"' :: rest => some (letters.reverse, rest)
  | '\\' :: 'u' :: a :: b :: c :: d :: rest =>
    match unit? a b c d with
    | some letter => readText? (letter :: letters) rest
    | none => none
  | '\\' :: e :: rest =>
    match escaped? e with
    | some letter => readText? (letter :: letters) rest
    | none => none
  | c :: rest => if c.toNat < 0x20 then none else readText? (.plain c :: letters) rest

def isWhole : List Char → Bool
  | [] => false
  | ['0'] => true
  | d :: _ => d != '0'

def readFraction? : List Char → Option (List Char × List Char)
  | '.' :: rest =>
    let (digits, rest) := spanDigits rest
    if digits.isEmpty then none else some (digits, rest)
  | rest => some ([], rest)

def readExponent? : List Char → Option (Option (Bool × List Char) × List Char)
  | [] => some (none, [])
  | e :: rest =>
    if e == 'e' || e == 'E' then
      let (negative, rest) := readSign rest
      let (digits, rest) := spanDigits rest
      if digits.isEmpty then none else some (some (negative, digits), rest)
    else some (none, e :: rest)

def readNumeral? (s : List Char) : Option (Numeral × List Char) := do
  let (negative, s) := match s with
    | '-' :: rest => (true, rest)
    | rest => (false, rest)
  let (whole, s) := spanDigits s
  if isWhole whole then
    let (fraction, s) ← readFraction? s
    let (exponent, s) ← readExponent? s
    some (⟨negative, whole, fraction, exponent⟩, s)
  else none

mutual

/-- Reads a value and what follows it. Each step takes one unit of fuel. -/
def readValue? : Nat → List Char → Option (Raw × List Char)
  | 0, _ => none
  | fuel + 1, s =>
    match skipBlank s with
    | '"' :: rest => (readText? [] rest).map fun (letters, rest) ↦ (.text letters, rest)
    | '[' :: rest =>
      match skipBlank rest with
      | ']' :: rest => some (.array [], rest)
      | rest => (readItems? fuel rest).map fun (items, rest) ↦ (.array items, rest)
    | '\x7b' :: rest =>
      match skipBlank rest with
      | '\x7d' :: rest => some (.object [], rest)
      | rest => (readMembers? fuel rest).map fun (members, rest) ↦ (.object members, rest)
    | 'n' :: 'u' :: 'l' :: 'l' :: rest => some (.null, rest)
    | 't' :: 'r' :: 'u' :: 'e' :: rest => some (.bool true, rest)
    | 'f' :: 'a' :: 'l' :: 's' :: 'e' :: rest => some (.bool false, rest)
    | rest => (readNumeral? rest).map fun (n, rest) ↦ (.number n, rest)

def readItems? : Nat → List Char → Option (List Raw × List Char)
  | 0, _ => none
  | fuel + 1, s => do
    let (item, s) ← readValue? fuel s
    match skipBlank s with
    | ',' :: rest => (readItems? fuel rest).map fun (items, rest) ↦ (item :: items, rest)
    | ']' :: rest => some ([item], rest)
    | _ => none

def readMembers? : Nat → List Char → Option (List (List Letter × Raw) × List Char)
  | 0, _ => none
  | fuel + 1, s =>
    match skipBlank s with
    | '"' :: rest => do
      let (key, s) ← readText? [] rest
      match skipBlank s with
      | ':' :: s => do
        let (value, s) ← readValue? fuel s
        match skipBlank s with
        | ',' :: rest =>
          (readMembers? fuel rest).map fun (members, rest) ↦ ((key, value) :: members, rest)
        | '\x7d' :: rest => some ([(key, value)], rest)
        | _ => none
      | _ => none
    | _ => none

end

/-- The value written by a whole text. Opening a bracket takes a character and two steps, so twice
the length is fuel enough. -/
def read? (s : String) : Option Raw :=
  let s := s.toList
  match readValue? (2 * s.length + 2) s with
  | some (raw, rest) => if (skipBlank rest).isEmpty then some raw else none
  | none => none

mutual

def depth : Raw → Nat
  | .array items => depthItems items + 1
  | .object members => depthMembers members + 1
  | _ => 0

def depthItems : List Raw → Nat
  | [] => 0
  | item :: items => max item.depth (depthItems items)

def depthMembers : List (List Letter × Raw) → Nat
  | [] => 0
  | (_, value) :: members => max value.depth (depthMembers members)

end

end Raw

end TableQuery.Json
