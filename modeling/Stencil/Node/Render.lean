import Stencil.Node.Basic
import Stencil.Scope

namespace Stencil

/-- The scope of one element of a loop. `it` is bound last, so it wins over sources below it. -/
def Scope.element (scope : Scope) (source : String) (v : Value) : Scope :=
  (scope.bind source v).bind "it" v

/-- Writes every element, and after all but the last what comes between. -/
def loop (body between : Value → String) : List Value → String
  | [] => ""
  | [v] => body v
  | v :: w :: rest => body v ++ between v ++ loop body between (w :: rest)

namespace Node
mutual

/-- What a node writes in a scope. Only a list is looped over; any other value, a missing one too,
    is looped over as if it were alone in a list. -/
def render (scope : Scope) : Node → String
  | text content => content
  | lookup path => scope.text path
  | conditional condition thenArm elseArm =>
    if scope.truthy condition then render scope thenArm else render scope elseArm
  | iteration source body separator =>
    match (scope.lookup source).getD .null with
    | .list items =>
      loop (fun v => render (scope.element source v) body)
        (fun v => match separator with
          | some between => render (scope.element source v) between
          | none => "")
        items
    | single => render (scope.element source single) body
  | sequence nodes => renderAll scope nodes

def renderAll (scope : Scope) : List Node → String
  | [] => ""
  | node :: rest => render scope node ++ renderAll scope rest

end

theorem renderAll_append (scope : Scope) (xs ys : List Node) :
    renderAll scope (xs ++ ys) = renderAll scope xs ++ renderAll scope ys := by
  induction xs with
  | nil => simp [renderAll]
  | cons x xs ih => simp [renderAll, ih, String.append_assoc]

end Node
end Stencil
