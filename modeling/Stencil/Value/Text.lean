import Stencil.Decimal.Layout
import Stencil.Value.Basic

namespace Stencil.Value

mutual

/-- What a value prints as. Nothing is printed for null and false, and a map prints as `true`. -/
def text : Value → String
  | null => ""
  | bool b => if b then "true" else ""
  | integer n => toString n.toInt
  | unsigned n => toString n.toNat
  | float x => Decimal.Layout.display.write x
  | string s => s
  | list items => itemsText items
  | map _ => "true"

def itemsText : List Value → String
  | [] => ""
  | v :: rest => text v ++ itemsText rest

end

mutual

/-- What a condition makes of a value. -/
def truthy : Value → Bool
  | null => false
  | bool b => b
  | string s => !s.isEmpty
  | list items => anyTruthy items
  | _ => true

def anyTruthy : List Value → Bool
  | [] => false
  | v :: rest => truthy v || anyTruthy rest

end
end Stencil.Value
