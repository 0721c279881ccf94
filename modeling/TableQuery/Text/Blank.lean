import TableQuery.Text.Ranges

namespace TableQuery.Text

def whiteSpace : List (Nat × Nat) :=
  [(0x9, 0xd), (0x20, 0x20), (0x85, 0x85), (0xa0, 0xa0), (0x1680, 0x1680), (0x2000, 0x200a),
   (0x2028, 0x2029), (0x202f, 0x202f), (0x205f, 0x205f), (0x3000, 0x3000)]

/-- A text without a character that is not white space; the empty text is blank. -/
def isBlank (s : String) : Bool := s.toList.all (inRanges whiteSpace)

end TableQuery.Text
