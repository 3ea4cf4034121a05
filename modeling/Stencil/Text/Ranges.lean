namespace Stencil.Text

/-- Closed ranges of code points, ascending and apart. Character properties are those of Unicode 15.1. -/
abbrev Ranges := List (Nat × Nat)

/-- The first range that ends at or after `n` decides. -/
def Ranges.contains (n : Nat) : Ranges → Bool
  | [] => false
  | (first, last) :: rest => if n ≤ last then decide (first ≤ n) else Ranges.contains n rest

end Stencil.Text
