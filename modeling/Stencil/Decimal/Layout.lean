import Stencil.Decimal.Shortest

namespace Stencil.Decimal

/-- How a decimal is laid out. -/
structure Layout where
  /-- Least exponent of a leading digit that is written positionally. -/
  plainFrom : Int
  /-- First exponent of a leading digit that no longer is. -/
  plainBelow : Int
  /-- Whether an exponent above zero has a sign. -/
  plusSign : Bool
  tie : Tie

/-- A value inside rendered text. -/
def Layout.display : Layout := ⟨-4, 16, false, .up⟩

/-- A number in a document. -/
def Layout.document : Layout := ⟨-5, 16, true, .toEven⟩

def zeros (n : Int) : List Char := List.replicate n.toNat '0'

/-- A decimal in positional form, at least one digit on each side of the point. -/
def positional (digits : List Char) (exponent : Int) : List Char :=
  let lead := exponent + digits.length - 1
  if 0 ≤ exponent then digits ++ zeros exponent ++ ['.', '0']
  else if 0 ≤ lead then
    digits.take (lead + 1).toNat ++ '.' :: digits.drop (lead + 1).toNat
  else ['0', '.'] ++ zeros (-lead - 1) ++ digits

/-- A decimal with one digit before the point and an exponent. -/
def scientific (plusSign : Bool) (digits : List Char) (exponent : Int) : List Char :=
  let lead := exponent + digits.length - 1
  let sign := if lead < 0 then ['-'] else if plusSign then ['+'] else []
  let fraction := match digits.drop 1 with
    | [] => []
    | more => '.' :: more
  digits.take 1 ++ fraction ++ 'e' :: sign ++ Nat.toDigits 10 lead.natAbs

def Layout.place (form : Layout) (d : Scaled) : List Char :=
  let digits := Nat.toDigits 10 d.digits
  let lead := d.exponent + digits.length - 1
  if d.digits = 0 then ['0', '.', '0']
  else if form.plainFrom ≤ lead ∧ lead < form.plainBelow then positional digits d.exponent
  else scientific form.plusSign digits d.exponent

/-- A number that is not finite is named. -/
def Layout.write (form : Layout) (x : Float) : String :=
  let bits := x.toBits
  let negative := bits >>> 63 == 1
  let magnitude := bits &&& 0x7FFFFFFFFFFFFFFF
  let sign := if negative then "-" else ""
  if 0x7FF0000000000000 < magnitude then "NaN"
  else if magnitude == 0x7FF0000000000000 then sign ++ "inf"
  else sign ++ String.ofList (form.place ((Binary.ofBits magnitude).shortest form.tie))

/-- The float nearest to `digits * 10 ^ exponent`. -/
def toFloat (digits : Nat) (exponent : Int) : Float :=
  Float.ofScientific digits (decide (exponent < 0)) exponent.natAbs

end Stencil.Decimal
