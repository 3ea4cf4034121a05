import Stencil.Error
import Stencil.Text.Cut
import Stencil.Value.Merge
import Stencil.Value.Path

namespace Stencil

/-- A text that is to stand at a dotted key. -/
structure Assignment where
  key : String
  value : String
  deriving DecidableEq, Repr

namespace Assignment

/-- Reads `KEY=VALUE`; the value may hold further signs. -/
def parse (text : String) : Except ContextError Assignment :=
  match Text.cut? '=' text.toList with
  | some (c :: key, value) => .ok ⟨String.ofList (c :: key), String.ofList value⟩
  | _ => .error (.invalidAssignment text)

/-- Adds a value to those of its key. A new key goes last. -/
def addTo (key value : String) : List (String × List String) → List (String × List String)
  | [] => [(key, [value])]
  | (k, values) :: rest =>
    if k = key then (k, values ++ [value]) :: rest else (k, values) :: addTo key value rest

/-- The values of each key, keys in the order in which they first came. -/
def groups (assignments : List Assignment) : List (String × List String) :=
  assignments.foldl (fun groups a => addTo a.key a.value groups) []

/-- A key that came once has its text, one that came more often a list. -/
def groupValue : List String → Value
  | [value] => .string value
  | values => .list (values.map .string)

end Assignment

namespace Data

/-- Lays one entry over those of a map. -/
def put (merged : Data) : String × Value → Data
  | (key, value) =>
    match Map.get? key merged with
    | some existing => Map.insert key (existing.merge value) merged
    | none => Map.insert key value merged

/-- Lays maps over one another, later ones on top. -/
def merge (maps : List Data) : Data :=
  maps.foldl (fun merged data => data.foldl put merged) []

/-- Puts a value at a path below data. -/
def insert (data : Data) (v : Value) : List String → Data
  | [] => data
  | k :: ks => Map.alter k (fun old => Value.insert ks v (old.getD .null)) data

/-- Carries out assignments, all those of a key at once. -/
def assign (data : Data) (assignments : List Assignment) : Data :=
  (Assignment.groups assignments).foldl
    (fun data (key, values) => Data.insert data (Assignment.groupValue values) (segments key)) data

end Data
end Stencil
