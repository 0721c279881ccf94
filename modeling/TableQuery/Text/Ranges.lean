namespace TableQuery.Text

def inRanges (ranges : List (Nat × Nat)) (c : Char) : Bool :=
  ranges.any fun (first, last) ↦ first ≤ c.toNat && c.toNat ≤ last

end TableQuery.Text
