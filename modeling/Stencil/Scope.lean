import Stencil.Value.Path
import Stencil.Value.Text

namespace Stencil

/-- Data, and values that are bound over it at dotted paths. A look-up answers as if each binding
    had been assigned into a copy of what it is bound over. -/
inductive Scope where
  | root (data : Data)
  | bound (parent : Scope) (path : String) (value : Value)

namespace Scope

def empty : Scope := root []

def bind (scope : Scope) (path : String) (value : Value) : Scope := bound scope path value

def resolve : Scope → List String → Option Value
  | root _, [] => none
  | root data, k :: ks =>
    match Map.get? k data with
    | some v => v.get? ks
    | none => none
  | bound parent path value, sought =>
    let path := segments path
    if path.isPrefixOf sought then
      -- the look-up goes through the bound value
      value.get? (sought.drop path.length)
    else if sought.isPrefixOf path then
      -- the look-up stops at a map that contains the bound value
      let base := match parent.resolve sought with
        | some (.map entries) => entries
        | _ => []
      some (Value.insert (path.drop sought.length) value (.map base))
    else parent.resolve sought

def lookup (scope : Scope) (path : String) : Option Value := scope.resolve (segments path)

/-- What a path prints as; a missing one prints nothing. -/
def text (scope : Scope) (path : String) : String :=
  match scope.lookup path with
  | some v => v.text
  | none => ""

def truthy (scope : Scope) (path : String) : Bool :=
  match scope.lookup path with
  | some v => v.truthy
  | none => false

end Scope
end Stencil
