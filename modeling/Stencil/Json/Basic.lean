namespace Stencil

namespace Json

/-- Numbers keep apart what is written as an integer and fits one, and what is not. -/
inductive Number where
  | natural (n : UInt64)
  /-- Integers below zero. -/
  | negative (n : Int64)
  | real (x : Float)

end Json

/-- A JSON document. Objects hold what was written, in that order, repeated keys too. -/
inductive Json where
  | null
  | bool (b : Bool)
  | number (n : Json.Number)
  | string (s : String)
  | array (items : List Json)
  | object (entries : List (String × Json))
  deriving Inhabited

namespace Json

def string? : Json → Option String
  | string s => some s
  | _ => none

/-- A text of one character. -/
def char? : Json → Option Char
  | string s =>
    match s.toList with
    | [c] => some c
    | _ => none
  | _ => none

/-- An integer between two bounds. -/
def int? (low high : Int) : Json → Option Int
  | number (.natural n) => if low ≤ n.toNat ∧ (n.toNat : Int) ≤ high then some n.toNat else none
  | number (.negative n) => if low ≤ n.toInt ∧ n.toInt ≤ high then some n.toInt else none
  | _ => none

def ofInt (n : Int) : Json :=
  if n < 0 then number (.negative (Int64.ofInt n)) else number (.natural (UInt64.ofNat n.toNat))

/-- A tagged value is an object with one key. -/
def tagged (tag : String) (body : Json) : Json := object [(tag, body)]

variable {α : Type}

/-- What stands under a name that has to occur once. -/
def required (name : String) (fields : List (String × α)) : Option α :=
  match fields.filter (·.1 == name) with
  | [(_, v)] => some v
  | _ => none

/-- What stands under a name that may occur once. -/
def optional (name : String) (fields : List (String × α)) : Option (Option α) :=
  match fields.filter (·.1 == name) with
  | [] => some none
  | [(_, v)] => some (some v)
  | _ => none

/-- A structure's fields by name: an object has them in any order, and may have others; an array
    has them all, in the order of `names`. -/
def fields? (names : List String) : Json → Option (List (String × Json))
  | object entries => some entries
  | array items => if items.length = names.length then some (names.zip items) else none
  | _ => none

end Json
end Stencil
