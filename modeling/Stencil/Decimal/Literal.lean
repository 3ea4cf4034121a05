import Stencil.Decimal.Layout
import Stencil.Text.Digit

namespace Stencil.Decimal

/-- A number as it is written: sign, digits before and after the point, exponent. -/
structure Literal where
  negative : Bool
  whole : List Char
  fraction : Option (List Char)
  exponent : Option Int

namespace Literal

/-- A sign, if the text starts with one, and what follows. -/
def sign : List Char → Bool × List Char
  | '-' :: rest => (true, rest)
  | '+' :: rest => (false, rest)
  | rest => (false, rest)

/-- Reads an exponent after its mark: an optional sign and digits up to the end. -/
def exponent? (cs : List Char) : Option Int :=
  let (negative, digits) := sign cs
  if digits.isEmpty || !digits.all Char.isDigit then none
  else some (if negative then -(Text.ofDigits 10 digits) else Text.ofDigits 10 digits)

/-- Reads what follows the digits before the point: up to the end, a point needs digits after it. -/
def tail? (cs : List Char) : Option (Option (List Char) × Option Int) :=
  let marked (cs : List Char) : Option (Option Int) :=
    match cs with
    | [] => some none
    | c :: rest => if c = 'e' ∨ c = 'E' then (exponent? rest).map some else none
  match cs with
  | '.' :: rest =>
    let digits := rest.takeWhile Char.isDigit
    if digits.isEmpty then none
    else (marked (rest.dropWhile Char.isDigit)).map fun e => (some digits, e)
  | cs => (marked cs).map fun e => (none, e)

/-- Reads digits without a leading zero and what follows them, up to the end. -/
def unsigned? (negative : Bool) (cs : List Char) : Option Literal :=
  let whole := cs.takeWhile Char.isDigit
  if whole.isEmpty || (whole.head? == some '0' && decide (1 < whole.length)) then none
  else (tail? (cs.dropWhile Char.isDigit)).map fun (fraction, exponent) =>
    ⟨negative, whole, fraction, exponent⟩

/-- The nearest float, if there is one: beyond the largest there is none. Exponents far outside the
    range of floats are settled first. -/
def toFloat? (x : Literal) : Option Float :=
  let fraction := x.fraction.getD []
  let digits := Text.ofDigits 10 (x.whole ++ fraction)
  let exponent := x.exponent.getD 0 - fraction.length
  let lead := exponent + (Nat.toDigits 10 digits).length
  let magnitude :=
    if digits = 0 ∨ lead < -400 then some 0.0
    else if 400 < lead then none
    else
      let f := toFloat digits exponent
      if f.isInf then none else some f
  magnitude.map fun f => if x.negative then -f else f

/-- Whether it is written as an integer. -/
def isInteger (x : Literal) : Bool := x.fraction.isNone && x.exponent.isNone

end Literal
end Stencil.Decimal
