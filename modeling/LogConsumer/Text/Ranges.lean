/-! Sets of characters given as increasing ranges of code points. -/
namespace LogConsumer.Text

/-- Whether `n` lies in one of the ranges, which must be increasing and apart. -/
def inRanges (n : Nat) : List (Nat × Nat) → Bool
  | [] => false
  | (first, last) :: rest => if n < first then false else n ≤ last || inRanges n rest

end LogConsumer.Text
