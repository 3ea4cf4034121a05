import Stencil.Value.Map

namespace Stencil

/-- What a template can be rendered against. -/
inductive Value where
  | null
  | bool (b : Bool)
  | integer (n : Int64)
  | unsigned (n : UInt64)
  | float (x : Float)
  | string (s : String)
  | list (items : List Value)
  | map (entries : List (String × Value))
  deriving Inhabited

/-- Maps that templates see. -/
abbrev Data := Map Value

namespace Value

/-- A value as a list, if it is one. -/
def items? : Value → Option (List Value)
  | list items => some items
  | _ => none

def entries? : Value → Option Data
  | map entries => some entries
  | _ => none

/-- The entries of a map; any other value has none. -/
def entries (v : Value) : Data := v.entries?.getD []

mutual

/-- Structural, but floats compare as numbers do: NaN differs from itself, the zeros do not differ. -/
def equals : Value → Value → Bool
  | null, null => true
  | bool a, bool b => a == b
  | integer a, integer b => a == b
  | unsigned a, unsigned b => a == b
  | float a, float b => a == b
  | string a, string b => a == b
  | list as, list bs => equalItems as bs
  | map as, map bs => equalEntries as bs
  | _, _ => false

def equalItems : List Value → List Value → Bool
  | [], [] => true
  | a :: as, b :: bs => equals a b && equalItems as bs
  | _, _ => false

def equalEntries : List (String × Value) → List (String × Value) → Bool
  | [], [] => true
  | (k, a) :: as, (l, b) :: bs => k == l && equals a b && equalEntries as bs
  | _, _ => false

end

mutual

/-- All maps inside a value are in order. -/
def Ordered : Value → Prop
  | list items => ItemsOrdered items
  | map entries => Map.Ordered entries ∧ EntriesOrdered entries
  | _ => True

def ItemsOrdered : List Value → Prop
  | [] => True
  | v :: rest => Ordered v ∧ ItemsOrdered rest

def EntriesOrdered : List (String × Value) → Prop
  | [] => True
  | (_, v) :: rest => Ordered v ∧ EntriesOrdered rest

end
end Value
end Stencil
