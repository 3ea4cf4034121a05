import Stencil.Value.Basic

namespace Stencil.Value

mutual

/-- Lays a value over another. Maps are joined key by key; anything else replaces what was there. -/
def merge (base : Value) : Value → Value
  | map overlay =>
    match base with
    | map entries => map (mergeEntries entries overlay)
    | _ => map overlay
  | other => other

def mergeEntries (base : List (String × Value)) : List (String × Value) → List (String × Value)
  | [] => base
  | (key, value) :: rest =>
    let joined := match Map.get? key base with
      | some old => merge old value
      | none => value
    mergeEntries (Map.insert key joined base) rest

end
end Stencil.Value
