namespace TableQuery

def Binary64.binadeSize : Nat := 0x10000000000000

/-- The rank of infinity: 2047 binades lie below it. -/
def Binary64.top : Nat := 2047 * binadeSize

/-- A number is a sign and a magnitude, and the magnitudes are counted upwards from zero, which has
rank 0. Every finite one is a whole number of units of `2 ^ -1074`. -/
inductive Binary64 where
  | nan
  | signed (negative : Bool) (rank : Nat) (h : rank ≤ Binary64.top)
deriving DecidableEq

namespace Binary64

def ofRank (negative : Bool) (rank : Nat) : Binary64 :=
  .signed negative (min rank top) (Nat.min_le_right _ _)

def zero : Binary64 := ofRank false 0

def infinity (negative : Bool) : Binary64 := ofRank negative top

instance : Inhabited Binary64 := ⟨zero⟩

/-- The units of `2 ^ -1074` in the magnitude of a rank. -/
def units (rank : Nat) : Nat :=
  let binade := rank / binadeSize
  let fraction := rank % binadeSize
  if binade = 0 then fraction else (binadeSize + fraction) * Nat.pow 2 (binade - 1)

def one : Nat := Nat.pow 2 1074

def roundDiv (num den : Nat) : Nat :=
  let quotient := num / den
  match compare (2 * (num % den)) den with
  | .lt => quotient
  | .eq => quotient + quotient % 2
  | .gt => quotient + 1

/-- The rank of the magnitude nearest to `num / den` units. Above `2 ^ 53` units a binade has a
step of `2 ^ shift` units; a quotient that rounds up to the next binade has its rank too. -/
def nearest (num den : Nat) : Nat :=
  let shift := Nat.log2 (num / den) - 52
  shift * binadeSize + roundDiv num (den * Nat.pow 2 shift)

def ofUnits (negative : Bool) (num den : Nat) : Binary64 := ofRank negative (nearest num den)

def ofNat (n : Nat) : Binary64 := ofUnits false (n * one) 1

def ofInt (n : Int) : Binary64 := ofUnits (n < 0) (n.natAbs * one) 1

def isFinite : Binary64 → Bool
  | .nan => false
  | .signed _ rank _ => rank < top

def position (negative : Bool) (rank : Nat) : Int := if negative then -rank else rank

def order? : Binary64 → Binary64 → Option Ordering
  | .signed s a _, .signed t b _ => some (compare (position s a) (position t b))
  | _, _ => none

/-- Equality of numbers: the two zeros are equal, and what is not a number equals nothing. -/
def equals (x y : Binary64) : Bool := order? x y == some .eq

def isZero : Binary64 → Bool
  | .nan => false
  | .signed _ rank _ => rank == 0

def neg : Binary64 → Binary64
  | .nan => .nan
  | .signed s a h => .signed (!s) a h

def signedUnits (negative : Bool) (rank : Nat) : Int :=
  if negative then -(units rank : Int) else units rank

def add : Binary64 → Binary64 → Binary64
  | .signed s a _, .signed t b _ =>
    if a = top ∧ b = top ∧ s ≠ t then .nan
    else if a = top then infinity s
    else if b = top then infinity t
    else
      let sum := signedUnits s a + signedUnits t b
      ofUnits (if sum = 0 then s && t else sum < 0) sum.natAbs 1
  | _, _ => .nan

def mul : Binary64 → Binary64 → Binary64
  | .signed s a _, .signed t b _ =>
    if (a = top ∧ b = 0) ∨ (a = 0 ∧ b = top) then .nan
    else if a = top ∨ b = top then infinity (s ^^ t)
    else ofUnits (s ^^ t) (units a * units b) one
  | _, _ => .nan

def div : Binary64 → Binary64 → Binary64
  | .signed s a _, .signed t b _ =>
    if (a = top ∧ b = top) ∨ (a = 0 ∧ b = 0) then .nan
    else if a = top ∨ b = 0 then infinity (s ^^ t)
    else if b = top then ofRank (s ^^ t) 0
    else ofUnits (s ^^ t) (units a * one) (units b)
  | _, _ => .nan

end Binary64

end TableQuery
