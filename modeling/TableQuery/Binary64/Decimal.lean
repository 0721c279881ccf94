import TableQuery.Binary64.Basic

namespace TableQuery

/-- The decimal `digits * 10 ^ exponent`. -/
structure Decimal where
  digits : Nat
  exponent : Int
deriving DecidableEq

namespace Decimal

open Binary64

def size (d : Decimal) : Int := (Nat.toDigits 10 d.digits).length + d.exponent

def numerator (d : Decimal) : Nat := d.digits * Nat.pow 10 d.exponent.toNat * one

def denominator (d : Decimal) : Nat := Nat.pow 10 (-d.exponent).toNat

/-- The rank of the magnitude nearest to a decimal. Beyond four hundred places the size decides. -/
def rank (d : Decimal) : Nat :=
  if d.digits = 0 ∨ d.size < -400 then 0
  else if 400 < d.size then top
  else nearest d.numerator d.denominator

end Decimal

namespace Binary64

def ofDecimal (negative : Bool) (d : Decimal) : Binary64 := ofRank negative d.rank

inductive Tie where
  | up
  | toEven
deriving DecidableEq

def floorAt (rank : Nat) (exponent : Int) : Nat :=
  units rank * Nat.pow 10 (-exponent).toNat / (one * Nat.pow 10 exponent.toNat)

def closer (tie : Tie) (rank : Nat) (exponent : Int) (low : Nat) : Nat :=
  match compare (2 * (units rank * Nat.pow 10 (-exponent).toNat))
      ((2 * low + 1) * (one * Nat.pow 10 exponent.toNat)), tie with
  | .lt, _ => low
  | .gt, _ => low + 1
  | .eq, .up => low + 1
  | .eq, .toEven => low + low % 2

/-- The decimal with this exponent that is closest to a magnitude among those whose nearest
magnitude it is. -/
def onGrid (tie : Tie) (rank : Nat) (exponent : Int) : Option Decimal :=
  let low := floorAt rank exponent
  let fits (digits : Nat) : Bool := Decimal.rank ⟨digits, exponent⟩ == rank
  match fits low, fits (low + 1) with
  | true, true => some ⟨closer tie rank exponent low, exponent⟩
  | true, false => some ⟨low, exponent⟩
  | false, true => some ⟨low + 1, exponent⟩
  | false, false => none

def decimalSize (rank : Nat) : Int :=
  let estimate := ((Nat.log2 (units rank) : Int) - 1074) * 30103 / 100000 + 1
  if units rank * Nat.pow 10 (-estimate).toNat < one * Nat.pow 10 estimate.toNat then estimate
  else estimate + 1

def exact (rank : Nat) : Decimal := ⟨units rank * Nat.pow 5 1074, -1074⟩

/-- The decimal with the fewest digits whose nearest magnitude has this rank. -/
def shortest (tie : Tie) (rank : Nat) : Decimal :=
  let size := decimalSize rank
  ((List.range 17).findSome? fun n ↦ onGrid tie rank (size - (n + 1 : Nat))).getD (exact rank)

structure Layout where
  /-- The least exponent of the leading digit that is written positionally, if there is one. -/
  plainFrom : Option Int
  /-- The greatest exponent of the leading digit that is written positionally, if there is one. -/
  plainTo : Option Int
  pointZero : Bool
  plusSign : Bool
  tie : Tie

namespace Layout

def isPlain (l : Layout) (exponent : Int) : Bool :=
  l.plainFrom.all (· ≤ exponent) && l.plainTo.all (exponent ≤ ·)

def positional (l : Layout) (digits : List Char) (point : Int) : List Char :=
  if point ≤ 0 then '0' :: '.' :: List.replicate (-point).toNat '0' ++ digits
  else if digits.length ≤ point.toNat then
    digits ++ List.replicate (point.toNat - digits.length) '0' ++
      (if l.pointZero then ['.', '0'] else [])
  else digits.take point.toNat ++ '.' :: digits.drop point.toNat

def scientific (l : Layout) (digits : List Char) (exponent : Int) : List Char :=
  digits.take 1 ++ (if 1 < digits.length then '.' :: digits.drop 1 else []) ++
    'e' :: (if exponent < 0 then ['-'] else if l.plusSign then ['+'] else []) ++
    Nat.toDigits 10 exponent.natAbs

def significant (d : Decimal) : List Char :=
  ((Nat.toDigits 10 d.digits).reverse.dropWhile (· == '0')).reverse

def decimal (l : Layout) (d : Decimal) : List Char :=
  if l.isPlain (d.size - 1) then l.positional (significant d) d.size
  else l.scientific (significant d) (d.size - 1)

def magnitude (l : Layout) (rank : Nat) : List Char :=
  if rank = 0 then l.positional ['0'] 1
  else if rank = top then ['i', 'n', 'f']
  else l.decimal (shortest l.tie rank)

def write (l : Layout) : Binary64 → List Char
  | .nan => ['N', 'a', 'N']
  | .signed negative rank _ => (if negative then ['-'] else []) ++ l.magnitude rank

end Layout

end Binary64

end TableQuery
