import Stencil.Node.Basic
import Stencil.Text.Quoted

namespace Stencil.Node

/-- A line of an outline. -/
def outlineLine (depth : Nat) (content : String) : String :=
  String.ofList (List.replicate (4 * depth) ' ') ++ content ++ "\n"

mutual

/-- A line for each node, what belongs to it further in. -/
def outlineAt (depth : Nat) : Node → String
  | text content => outlineLine depth ("Text<" ++ Text.quoted content ++ ">")
  | lookup path => outlineLine depth ("Variable<" ++ path ++ ">")
  | conditional condition thenArm elseArm =>
    outlineLine depth ("Conditional<" ++ condition ++ ">") ++ outlineAt (depth + 1) thenArm ++
      outlineLine depth "else" ++ outlineAt (depth + 1) elseArm
  | iteration source body separator =>
    outlineLine depth ("Iteration<" ++ source ++ ">") ++ outlineAt (depth + 1) body ++
      match separator with
      | some between => outlineLine depth "sep" ++ outlineAt (depth + 1) between
      | none => ""
  | sequence nodes => outlineLine depth "Sequence" ++ outlineAll (depth + 1) nodes

def outlineAll (depth : Nat) : List Node → String
  | [] => ""
  | node :: rest => outlineAt depth node ++ outlineAll depth rest

end

def outline (node : Node) : String := node.outlineAt 0

end Stencil.Node
