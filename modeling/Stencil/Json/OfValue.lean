import Stencil.Json.Basic
import Stencil.Value.Basic

namespace Stencil

namespace Json

/-- The kinds of value that a document can stand for, each with what it takes. -/
def toInt64? : Json → Option Int64
  | number (.natural n) => if n.toNat ≤ Int64.maxValue.toInt then some (Int64.ofInt n.toNat) else none
  | number (.negative n) => some n
  | _ => none

def toUInt64? : Json → Option UInt64
  | number (.natural n) => some n
  | _ => none

/-- Any number is a float. -/
def toFloat? : Json → Option Float
  | number (.natural n) => some n.toFloat
  | number (.negative n) => some n.toFloat
  | number (.real x) => some x
  | _ => none

/-- A document with the entries of each object in key order, of repeated keys the last. -/
inductive Settled where
  | null
  | bool (b : Bool)
  | number (n : Number)
  | string (s : String)
  | array (items : List Settled)
  | object (entries : List (String × Settled))

mutual

def settle : Json → Settled
  | null => .null
  | bool b => .bool b
  | number n => .number n
  | string s => .string s
  | array items => .array (settleItems items)
  | object entries => .object (Map.ofList (settleEntries entries))

def settleItems : List Json → List Settled
  | [] => []
  | j :: rest => settle j :: settleItems rest

def settleEntries : List (String × Json) → List (String × Settled)
  | [] => []
  | (key, j) :: rest => (key, settle j) :: settleEntries rest

end
end Json

namespace Value

mutual

/-- A document as a value: the first kind of value that takes it. -/
def ofJson? (j : Json) : Option Value :=
  match j with
  | .null => some null
  | .bool b => some (bool b)
  | .number n =>
    (((Json.number n).toInt64?.map integer).orElse fun _ =>
      (Json.number n).toUInt64?.map unsigned).orElse fun _ =>
        (Json.number n).toFloat?.map float
  | .string s => some (string s)
  | .array items => (ofItems? items).map list
  | .object entries => (ofEntries? entries).map fun entries => map (Map.ofList entries)

def ofItems? : List Json → Option (List Value)
  | [] => some []
  | j :: rest => do return (← ofJson? j) :: (← ofItems? rest)

def ofEntries? : List (String × Json) → Option (List (String × Value))
  | [] => some []
  | (key, j) :: rest => do return (key, ← ofJson? j) :: (← ofEntries? rest)

end

/-- A number as a value: an integer if it is one that fits, else a float. -/
def ofNumber : Json.Number → Value
  | .natural n => if n < 0x8000000000000000 then integer n.toInt64 else unsigned n
  | .negative n => integer n
  | .real x => float x

mutual

/-- A settled document as a value. -/
def ofSettled : Json.Settled → Value
  | .null => null
  | .bool b => bool b
  | .number n => ofNumber n
  | .string s => string s
  | .array items => list (ofSettledItems items)
  | .object entries => map (Map.ofList (ofSettledEntries entries))

def ofSettledItems : List Json.Settled → List Value
  | [] => []
  | j :: rest => ofSettled j :: ofSettledItems rest

def ofSettledEntries : List (String × Json.Settled) → List (String × Value)
  | [] => []
  | (key, j) :: rest => (key, ofSettled j) :: ofSettledEntries rest

end

/-- An integer as a number. -/
def numberOfInt64 (n : Int64) : Json.Number :=
  if n < 0 then .negative n else .natural n.toUInt64

mutual

/-- A float without a value to write becomes null. -/
def toJson : Value → Json
  | null => .null
  | bool b => .bool b
  | integer n => .number (numberOfInt64 n)
  | unsigned n => .number (.natural n)
  | float x => if x.isFinite then .number (.real x) else .null
  | string s => .string s
  | list items => .array (toJsonItems items)
  | map entries => .object (toJsonEntries entries)

def toJsonItems : List Value → List Json
  | [] => []
  | v :: rest => toJson v :: toJsonItems rest

def toJsonEntries : List (String × Value) → List (String × Json)
  | [] => []
  | (key, v) :: rest => (key, toJson v) :: toJsonEntries rest

end
end Value
end Stencil
