namespace QueryTree.Text

-- The next row of the table of distances. `corner` and `left` are the entries above and before the one to
-- fill, and the first argument is the letter of the row.
def distanceRow [BEq α] (x : α) (corner left : Nat) : List α → List Nat → List Nat
  | y :: ys, above :: row =>
    let entry := if x == y then corner else 1 + min (min left above) corner
    entry :: distanceRow x above entry ys row
  | _, _ => []

-- The last row of the table. Each row starts with the number of letters read.
def distanceRows [BEq α] (ys : List α) (read : Nat) (row : List Nat) : List α → Nat × List Nat
  | [] => (read, row)
  | x :: xs => distanceRows ys (read + 1) (distanceRow x read (read + 1) ys row) xs

def distance [BEq α] (xs ys : List α) : Nat :=
  let (read, row) := distanceRows ys 0 ((List.range ys.length).map (· + 1)) xs
  row.getLast?.getD read

end QueryTree.Text
