import Stencil.Json.Basic
import Stencil.Node.Basic

namespace Stencil.Node
open Json (tagged required optional)

mutual

def toJson : Node → Json
  | text content => tagged "text" (.string content)
  | lookup path => tagged "variable" (.string path)
  | conditional condition thenArm elseArm =>
    tagged "conditional" (.object [("condition", .string condition), ("then_arm", toJson thenArm),
      ("else_arm", toJson elseArm)])
  | iteration source body separator =>
    tagged "iteration" (.object [("source", .string source), ("body", toJson body),
      ("separator", match separator with
        | some between => toJson between
        | none => .null)])
  | sequence nodes => tagged "sequence" (.array (toJsonAll nodes))

def toJsonAll : List Node → List Json
  | [] => []
  | node :: rest => toJson node :: toJsonAll rest

end

mutual

/-- Each node is an object with one key, its tag. -/
def ofJson? : Json → Option Node
  | .object [(tag, body)] => ofTagged? tag body
  | _ => none

def ofTagged? (tag : String) : Json → Option Node
  | .string s =>
    if tag = "text" then some (text s) else if tag = "variable" then some (lookup s) else none
  | .array items =>
    if tag = "sequence" then (ofJsonAll? items).map sequence
    else match items with
      | [.string path, first, second] =>
        if tag = "conditional" then do
          return conditional path (← ofJson? first) (← ofJson? second)
        else if tag = "iteration" then
          match second with
          | .null => (ofJson? first).map (iteration path · none)
          | between => do return iteration path (← ofJson? first) (some (← ofJson? between))
        else none
      | _ => none
  | .object fields =>
    let nodes := fieldNodes fields
    if tag = "conditional" then do
      let condition ← (← required "condition" fields).string?
      return conditional condition (← ← required "then_arm" nodes) (← ← required "else_arm" nodes)
    else if tag = "iteration" then do
      let source ← (← required "source" fields).string?
      let body ← ← required "body" nodes
      match ← optional "separator" fields with
      | none | some .null => return iteration source body none
      | some _ => return iteration source body (some (← ← required "separator" nodes))
    else none
  | _ => none

def ofJsonAll? : List Json → Option (List Node)
  | [] => some []
  | j :: rest => do return (← ofJson? j) :: (← ofJsonAll? rest)

/-- The fields of an object, read as nodes where they are some. -/
def fieldNodes : List (String × Json) → List (String × Option Node)
  | [] => []
  | (name, j) :: rest => (name, ofJson? j) :: fieldNodes rest

end
end Stencil.Node
