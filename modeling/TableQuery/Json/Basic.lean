import TableQuery.Binary64.Basic

namespace TableQuery

inductive Json.Number where
  | integer (n : Int)
  | float (x : Binary64)
deriving DecidableEq

inductive Json where
  | null
  | bool (b : Bool)
  | number (n : Json.Number)
  | text (s : String)
  | array (items : List Json)
  | object (members : List (String × Json))

instance : Inhabited Json := ⟨.null⟩

end TableQuery
