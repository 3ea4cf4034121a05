namespace Stencil.Decimal

/-- A finite value `mantissa * 2 ^ exponent`, sign aside. -/
structure Binary where
  mantissa : Nat
  exponent : Int
  /-- The value below is half as far away as the one above. -/
  narrowBelow : Bool
  deriving DecidableEq, Repr

/-- The value of 64 bits that stand neither for an infinity nor for NaN. -/
def Binary.ofBits (bits : UInt64) : Binary :=
  let e := (bits >>> 52 &&& 0x7FF).toNat
  let f := (bits &&& 0xFFFFFFFFFFFFF).toNat
  if e = 0 then ⟨f, -1074, false⟩ else ⟨0x10000000000000 + f, (e : Int) - 1075, f == 0 && decide (1 < e)⟩

/-- `digits * 10 ^ exponent` -/
structure Scaled where
  digits : Nat
  exponent : Int
  deriving DecidableEq, Repr

/-- Where a value lies exactly between two decimals of equal length: the larger or the even one. -/
inductive Tie where
  | up
  | toEven
  deriving DecidableEq, Repr

/-- A value measured in units of `10 ^ exponent`: `num / den` of them. -/
structure Grid where
  exponent : Int
  num : Nat
  den : Nat

def Binary.grid (x : Binary) (exponent : Int) : Grid :=
  ⟨exponent, x.mantissa * Nat.pow 2 x.exponent.toNat * Nat.pow 10 (-exponent).toNat,
    Nat.pow 2 (-x.exponent).toNat * Nat.pow 10 exponent.toNat⟩

/-- `c` units lie among the reals that round to `x`: from halfway to the value below to halfway to
    the one above, ends included if the mantissa is even. -/
def Binary.readsBack (x : Binary) (g : Grid) (c : Nat) : Bool :=
  let quarter := Nat.pow 2 x.exponent.toNat * Nat.pow 10 (-g.exponent).toNat
  let low := (4 * x.mantissa - if x.narrowBelow then 1 else 2) * quarter
  let high := (4 * x.mantissa + 2) * quarter
  let here := c * (4 * g.den)
  if x.mantissa % 2 = 0 then decide (low ≤ here) && decide (here ≤ high)
  else decide (low < here) && decide (here < high)

/-- The decimal on a grid that reads back to `x` and is nearest to it. -/
def Binary.nearest? (x : Binary) (tie : Tie) (exponent : Int) : Option Scaled :=
  let g := x.grid exponent
  let below := g.num / g.den
  match x.readsBack g below, x.readsBack g (below + 1) with
  | false, false => none
  | true, false => some ⟨below, exponent⟩
  | false, true => some ⟨below + 1, exponent⟩
  | true, true =>
    let c := match compare (2 * g.num) ((2 * below + 1) * g.den), tie with
      | .lt, _ => below
      | .gt, _ => below + 1
      | .eq, .up => below + 1
      | .eq, .toEven => below + below % 2
    some ⟨c, exponent⟩

/-- The least `k` with `x < 10 ^ k`, for a value other than zero. Its binary logarithm leaves two
    choices. -/
def Binary.scale (x : Binary) : Int :=
  let k := (x.mantissa.log2 + x.exponent) * 30103 / 100000 + 1
  let g := x.grid k
  if g.num < g.den then k else k + 1

/-- Moves trailing zeros into the exponent. -/
def Scaled.strip (d : Scaled) : Scaled :=
  if h : d.digits ≠ 0 ∧ d.digits % 10 = 0 then
    Scaled.strip ⟨d.digits / 10, d.exponent + 1⟩
  else d
termination_by d.digits
decreasing_by exact Nat.div_lt_self (Nat.pos_of_ne_zero h.1) (by decide)

/-- All digits of a value. -/
def Binary.exact (x : Binary) : Scaled :=
  ⟨x.mantissa * Nat.pow 2 x.exponent.toNat * Nat.pow 5 (-x.exponent).toNat, min x.exponent 0⟩

/-- The shortest decimal that reads back to `x`, and the nearest of those. -/
def Binary.shortest (x : Binary) (tie : Tie) : Scaled :=
  if x.mantissa = 0 then ⟨0, 0⟩
  else
    let k := x.scale
    match (List.range 17).findSome? fun (n : Nat) => x.nearest? tie (k - (n + 1)) with
    | some d => d.strip
    | none => x.exact.strip

end Stencil.Decimal
