namespace QueryTree.Text

-- Every `step`-th code point from `first` to `last`, both ends included.
structure Stride where
  first : Nat
  last : Nat
  step : Nat

def Stride.contains (s : Stride) (code : Nat) : Bool :=
  s.first ≤ code && code ≤ s.last && (code - s.first) % s.step == 0

abbrev CharSet := Array Stride

def CharSet.contains (set : CharSet) (code : Nat) : Bool :=
  set.any (·.contains code)

end QueryTree.Text
