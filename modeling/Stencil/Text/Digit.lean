namespace Stencil.Text

/-- The value of a digit in a base up to 36; letters of either case follow the ten figures. -/
def digit? (base : Nat) (c : Char) : Option Nat :=
  let n :=
    if c.isDigit then c.toNat - '0'.toNat
    else if 'a' ≤ c ∧ c ≤ 'z' then c.toNat - 'a'.toNat + 10
    else if 'A' ≤ c ∧ c ≤ 'Z' then c.toNat - 'A'.toNat + 10
    else base
  if n < base then some n else none

def isDigit (base : Nat) (c : Char) : Bool := (digit? base c).isSome

/-- The number that digits stand for, the first one most. -/
def ofDigits (base : Nat) (cs : List Char) : Nat :=
  cs.foldl (fun n c => base * n + (digit? base c).getD 0) 0

end Stencil.Text
