import TableQuery.Text.Folding

namespace TableQuery

namespace Like

/-- A percent sign stands for any run of characters, an underscore for one character, and every
other character for itself in any case. -/
inductive Piece where
  | run
  | one
  | letter (folded : Char)
deriving DecidableEq

def Piece.ofChar (c : Char) : Piece :=
  if c = '%' then .run else if c = '_' then .one else .letter (Text.fold c)

structure Pattern where
  pieces : List Piece
deriving DecidableEq

/-- What is left open about the library that compiles patterns: the bytes that the compiled form of
a pattern takes. -/
class Compiler where
  size : String → Nat

/-- Takes every pattern, as any compiler takes a short one. -/
abbrev Compiler.unlimited : Compiler := ⟨fun _ ↦ 0⟩

def sizeLimit : Nat := 10485760

def tooLarge : String := "Compiled regex exceeds size limit of " ++ toString sizeLimit ++ " bytes."

/-- The pattern written by a text, unless its compiled form is larger than the limit. That is the
one way in which an expression of escaped letters, `.` and `.*` can fail to compile. -/
def Pattern.compile? [Compiler] (pattern : String) : Option Pattern :=
  if Compiler.size pattern ≤ sizeLimit then some ⟨pattern.toList.map Piece.ofChar⟩ else none

/-- For every rest of a text, longest first, whether this rest or a shorter one is marked. -/
def anyLater : List Bool → List Bool
  | [] => []
  | mark :: marks =>
    let later := anyLater marks
    (mark || later.headD false) :: later

/-- For every rest of a folded text, longest first and the empty one last, whether the pieces match
it. Each piece costs one pass over the text. -/
def marks (text : List Char) : List Piece → List Bool
  | [] => text.map (fun _ ↦ false) ++ [true]
  | .run :: pieces => anyLater (marks text pieces)
  | .one :: pieces => (marks text pieces).drop 1 ++ [false]
  | .letter folded :: pieces =>
    List.zipWith (fun c mark ↦ c == folded && mark) text ((marks text pieces).drop 1) ++ [false]

def Pattern.isMatch (pattern : Pattern) (text : String) : Bool :=
  (marks (text.toList.map Text.fold) pattern.pieces).headD false

/-- Whether the pattern written by a text matches. A refused pattern matches nothing. -/
def isMatch [Compiler] (pattern text : String) : Bool :=
  match Pattern.compile? pattern with
  | some compiled => compiled.isMatch text
  | none => false

end Like

end TableQuery
