namespace TableQuery.Text

def lower (s : String) : List Char := s.toList.map Char.toLower

/-- Two names are the same up to the case of ASCII letters. -/
def sameName (a b : String) : Bool := lower a == lower b

end TableQuery.Text
