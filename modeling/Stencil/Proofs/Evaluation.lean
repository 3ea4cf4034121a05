import Stencil.Node.Render
import Stencil.Proofs.Overlay
import Stencil.Proofs.Truth

namespace Stencil

namespace Value

/-- A list has its items; any other value is looped over as if it were alone in a list. -/
def elements : Value → List Value
  | list items => items
  | single => [single]

def textAt (v : Value) (path : String) : String :=
  match v.get? (segments path) with
  | some found => found.text
  | none => ""

/-- A copy in which an element of a loop stands at the source, and then at `it`. -/
def withElement (v : Value) (source : String) (x : Value) : Value :=
  insertPath "it" x (insertPath source x v)

def copies (v : Value) (source : String) : List Value :=
  ((v.get? (segments source)).getD null).elements.map (v.withElement source)

end Value

/-- Writes every copy, and after all but the last what comes between. -/
def writeCopies (body between : Value → String) (copies : List Value) : String :=
  String.join (copies.dropLast.map fun v => body v ++ between v) ++
    String.join (copies.getLast?.toList.map body)

namespace Node
mutual

/-- What a node writes against a value, every element of a loop against a copy of its own. -/
def eval (v : Value) : Node → String
  | text content => content
  | lookup path => v.textAt path
  | conditional condition thenArm elseArm =>
    if v.textAt condition ≠ "" then eval v thenArm else eval v elseArm
  | iteration source body separator =>
    writeCopies (fun copy => eval copy body) (fun copy => evalBetween copy separator) (v.copies source)
  | sequence nodes => evalAll v nodes

def evalBetween (v : Value) : Option Node → String
  | some between => eval v between
  | none => ""

def evalAll (v : Value) : List Node → String
  | [] => ""
  | node :: rest => eval v node ++ evalAll v rest

end
end Node

theorem Scope.text_eq_textAt_copy (scope : Scope) (path : String) :
    scope.text path = scope.copy.textAt path := by
  cases h : scope.copy.get? (segments path) <;>
    simp only [Scope.text, Value.textAt, lookup_eq_get?_copy, h]

theorem Scope.truthy_iff_textAt_copy (scope : Scope) (path : String) :
    scope.truthy path = true ↔ scope.copy.textAt path ≠ "" := by
  rw [← scope.text_eq_textAt_copy]
  exact scope.truthy_iff_text_ne_empty path

theorem Scope.copy_element (scope : Scope) (source : String) (x : Value) :
    (scope.element source x).copy = scope.copy.withElement source x := rfl

theorem writeCopies_singleton (body between : Value → String) (v : Value) :
    writeCopies body between [v] = body v := by
  simp [writeCopies, String.join]

theorem writeCopies_map (body between : Value → String) (f : Value → Value) (items : List Value) :
    writeCopies body between (items.map f) = writeCopies (body ∘ f) (between ∘ f) items := by
  unfold writeCopies
  rw [← List.map_dropLast, List.map_map, List.getLast?_map]
  cases items.getLast? <;> rfl

theorem loop_eq_writeCopies (body between : Value → String) (items : List Value) :
    loop body between items = writeCopies body between items := by
  fun_induction loop body between items with
  | case1 => rfl
  | case2 v => rw [writeCopies_singleton]
  | case3 v w rest ih => simp [ih, writeCopies, String.join_cons, String.append_assoc]

namespace Node

/-- A copy follows its scope into every loop, so the scopes that a loop opens never have to be
    compared with each other. -/
theorem render_eq_eval_copy (scope : Scope) (node : Node) :
    node.render scope = node.eval scope.copy := by
  revert scope node
  refine (render.mutual_induct (fun scope node => node.render scope = node.eval scope.copy)
    (fun scope nodes => renderAll scope nodes = evalAll scope.copy nodes)
    ?text ?lookup ?holds ?fails ?list ?single ?sequence ?nil ?cons).1
  case text =>
    intro scope content
    rw [render, eval]
  case lookup =>
    intro scope path
    rw [render, eval, scope.text_eq_textAt_copy]
  case holds =>
    intro scope condition thenArm elseArm h ih
    rw [render, eval, if_pos h, if_pos ((scope.truthy_iff_textAt_copy condition).1 h), ih]
  case fails =>
    intro scope condition thenArm elseArm h ih
    rw [render, eval, if_neg h, if_neg (mt (scope.truthy_iff_textAt_copy condition).2 h), ih]
  case list =>
    intro scope source body separator items h ihBody ihBetween
    have hcopies : scope.copy.copies source = items.map (scope.copy.withElement source) := by
      rw [Value.copies, ← scope.lookup_eq_get?_copy, h, Value.elements]
    have hbody : (fun x => render (scope.element source x) body) =
        (fun copy => eval copy body) ∘ scope.copy.withElement source := funext ihBody
    rw [render, eval, h, hcopies, writeCopies_map, ← loop_eq_writeCopies, ← hbody]
    refine congrArg (loop _ · items) ?_
    funext x
    cases separator with
    | none => rfl
    | some between => exact ihBetween x
  case single =>
    intro scope source body separator h ih
    rw [render, eval, Value.copies, ← scope.lookup_eq_get?_copy]
    generalize (scope.lookup source).getD .null = v at h ih
    have hv : v.elements = [v] := by
      cases v with
      | list items => exact absurd rfl (h items)
      | _ => rfl
    rw [hv, List.map_singleton, writeCopies_singleton, ← scope.copy_element, ← ih]
    cases v with
    | list items => exact absurd rfl (h items)
    | _ => rfl
  case sequence =>
    intro scope nodes ih
    rw [render, eval, ih]
  case nil =>
    intro scope
    rw [renderAll, evalAll]
  case cons =>
    intro scope node rest ihNode ihRest
    rw [renderAll, evalAll, ihNode, ihRest]

/-- Rendering under bindings writes what the copying evaluator writes against the data with the
    bindings assigned in order. -/
theorem render_bindAll_root (node : Node) (data : Data) (bindings : List (String × Value)) :
    node.render ((Scope.root data).bindAll bindings) =
      node.eval ((Value.map data).assignAll bindings) := by
  rw [render_eq_eval_copy, Scope.copy_bindAll, Scope.copy]

end Node
end Stencil
