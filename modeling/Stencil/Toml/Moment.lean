import Stencil.Text.Digit
import Stencil.Text.Scan

namespace Stencil.Toml
open Scan

structure Date where
  year : Nat
  month : Nat
  day : Nat

structure Time where
  hour : Nat
  minute : Nat
  second : Nat
  /-- The digits after the point. -/
  fraction : List Char

inductive Offset where
  | utc
  | minutes (n : Int)

/-- A date, a time, or both, and then perhaps an offset. -/
inductive Moment where
  | date (d : Date)
  | time (t : Time)
  | local (d : Date) (t : Time)
  | offset (d : Date) (t : Time) (o : Offset)

def daysIn (year month : Nat) : Nat :=
  if month = 2 then
    if year % 4 = 0 ∧ (year % 100 ≠ 0 ∨ year % 400 = 0) then 29 else 28
  else if month = 4 ∨ month = 6 ∨ month = 9 ∨ month = 11 then 30
  else 31

/-- A number of so many digits within bounds. -/
def field (digits low high : Nat) : Scan Nat := fun cs =>
  let text := cs.take digits
  let n := Text.ofDigits 10 text
  if text.length = digits ∧ text.all Char.isDigit ∧ low ≤ n ∧ n ≤ high then some (n, cs.drop digits)
  else none

def date : Scan Date := do
  let year ← field 4 0 9999
  exactly ['-']
  let month ← field 2 1 12
  exactly ['-']
  let day ← field 2 1 (daysIn year month)
  return ⟨year, month, day⟩

/-- Nine digits of a second's fraction count. -/
def fraction : Scan (List Char) := do
  exactly ['.']
  let first ← char Char.isDigit
  return (first :: (← takeWhile Char.isDigit)).take 9

def time : Scan Time := do
  let hour ← field 2 0 23
  exactly [':']
  let minute ← field 2 0 59
  exactly [':']
  let second ← field 2 0 60
  return ⟨hour, minute, second, (← perhaps fraction).getD []⟩

def offset : Scan Offset := do
  let sign ← char fun c => c == 'Z' || c == 'z' || c == '+' || c == '-'
  if sign = 'Z' ∨ sign = 'z' then return .utc
  let hour ← field 2 0 23
  exactly [':']
  let minute ← field 2 0 59
  let n : Int := hour * 60 + minute
  return .minutes (if sign = '-' then -n else n)

def timeOfDay : Scan (Time × Option Offset) := do
  let _ ← char fun c => c == 'T' || c == 't' || c == ' '
  return (← time, ← perhaps offset)

def moment : Scan Moment :=
  (do
    let d ← date
    match ← perhaps timeOfDay with
    | none => return .date d
    | some (t, none) => return .local d t
    | some (t, some o) => return .offset d t o) <|>
  (Moment.time <$> time)

def padded (width n : Nat) : List Char :=
  let digits := Nat.toDigits 10 n
  List.replicate (width - digits.length) '0' ++ digits

def Date.text (d : Date) : List Char := padded 4 d.year ++ '-' :: padded 2 d.month ++ '-' :: padded 2 d.day

def Time.text (t : Time) : List Char :=
  let fraction := (t.fraction.reverse.dropWhile (· == '0')).reverse
  padded 2 t.hour ++ ':' :: padded 2 t.minute ++ ':' :: padded 2 t.second ++
    if fraction.isEmpty then [] else '.' :: fraction

def Offset.text : Offset → List Char
  | utc => ['Z']
  | minutes n =>
    (if n < 0 then '-' else '+') :: padded 2 (n.natAbs / 60) ++ ':' :: padded 2 (n.natAbs % 60)

/-- The normal form: `T` between date and time, and no zeros at the end of a fraction. -/
def Moment.text : Moment → List Char
  | date d => d.text
  | time t => t.text
  | .local d t => d.text ++ 'T' :: t.text
  | .offset d t o => d.text ++ 'T' :: t.text ++ o.text

end Stencil.Toml
