import Stencil.Proofs.Evaluation

namespace Stencil

namespace Scope

theorem lookup_bind_self (scope : Scope) (source : String) (v : Value) :
    (scope.bind source v).lookup source = some v := by
  rw [lookup_eq_get?_copy]
  exact Value.get?_insert_self (segments source) v scope.copy

/-- An element that is bound at the source hides what was bound there before. -/
theorem copy_element_bind (scope : Scope) (source : String) (old x : Value) :
    ((scope.bind source old).element source x).copy = (scope.element source x).copy := by
  have hhidden := Value.insert_insert_self (segments source) x old scope.copy
  exact congrArg (Value.insertPath "it" x) hhidden

end Scope

section Loop

variable {body between : Value → String}

theorem loop_cons_of_ne_nil (v : Value) {items : List Value} (h : items ≠ []) :
    loop body between (v :: items) = body v ++ between v ++ loop body between items := by
  cases items with
  | nil => exact absurd rfl h
  | cons w rest => rw [loop]

/-- Where two lists meet, what comes between is written for the last element of the first. -/
theorem loop_append (xs ys : List Value) (hxs : xs ≠ []) (hys : ys ≠ []) :
    loop body between (xs ++ ys) =
      loop body between xs ++ between (xs.getLast hxs) ++ loop body between ys := by
  induction xs with
  | nil => exact absurd rfl hxs
  | cons x rest ih =>
    by_cases hrest : rest = []
    · subst hrest
      exact loop_cons_of_ne_nil x hys
    · have happend : rest ++ ys ≠ [] := by simp [hrest]
      rw [List.cons_append, loop_cons_of_ne_nil x happend, loop_cons_of_ne_nil x hrest, ih hrest,
        List.getLast_cons hrest]
      simp only [String.append_assoc]

end Loop

namespace Node

/-- What a separator writes; a loop without one writes nothing between its elements. -/
def renderBetween (scope : Scope) : Option Node → String
  | some between => render scope between
  | none => ""

theorem render_iteration (scope : Scope) (source : String) (body : Node) (separator : Option Node) :
    render scope (iteration source body separator) =
      loop (fun x => render (scope.element source x) body)
        (fun x => renderBetween (scope.element source x) separator)
        ((scope.lookup source).getD .null).elements := by
  have hbetween : (fun x => renderBetween (scope.element source x) separator) =
      fun x => match separator with
        | some between => render (scope.element source x) between
        | none => "" := by
    funext x
    cases separator <;> rfl
  rw [render, hbetween]
  cases (scope.lookup source).getD .null <;> rfl

theorem render_element_bind (scope : Scope) (source : String) (old x : Value) (node : Node) :
    node.render ((scope.bind source old).element source x) =
      node.render (scope.element source x) := by
  rw [render_eq_eval_copy, render_eq_eval_copy, scope.copy_element_bind]

/-- A loop over what is bound at its source does not depend on which value that is, but for its
    elements. -/
theorem render_iteration_bind (scope : Scope) (source : String) (body : Node)
    (separator : Option Node) (v : Value) :
    render (scope.bind source v) (iteration source body separator) =
      loop (fun x => render (scope.element source x) body)
        (fun x => renderBetween (scope.element source x) separator) v.elements := by
  have hbetween : (fun x => renderBetween ((scope.bind source v).element source x) separator) =
      fun x => renderBetween (scope.element source x) separator := by
    funext x
    cases separator with
    | none => rfl
    | some between => exact render_element_bind scope source v x between
  rw [render_iteration, scope.lookup_bind_self, hbetween]
  simp only [render_element_bind, Option.getD_some]

/-- Laws of a loop over a value that is bound at its source. A value that is no list is looped over as
    the only element of one, without the separator. A list that is put together of two is looped over
    part by part, with the separator between the parts written for the last element of the first. -/
theorem loop_laws (scope : Scope) (source : String) (body : Node) (separator : Option Node) :
    let output (v : Value) := render (scope.bind source v) (iteration source body separator)
    (∀ v, v.items? = none → output v = output (.list [v])) ∧
      (∀ x, output (.list [x]) = render ((scope.bind source x).bind "it" x) body) ∧
      (∀ xs ys (hxs : xs ≠ []), ys ≠ [] →
        output (.list (xs ++ ys)) = output (.list xs) ++
          renderBetween ((scope.bind source (xs.getLast hxs)).bind "it" (xs.getLast hxs)) separator ++
          output (.list ys)) ∧
      output (.list []) = "" := by
  intro output
  have houtput (v : Value) := render_iteration_bind scope source body separator v
  refine ⟨?_, ?_, ?_, ?_⟩
  · intro v hv
    have hsingle : v.elements = [v] := by
      cases v with
      | list items => cases hv
      | _ => rfl
    show render _ _ = render _ _
    rw [houtput, houtput, hsingle]
    rfl
  · intro x
    exact houtput (.list [x])
  · intro xs ys hxs hys
    show render _ _ = render _ _ ++ _ ++ render _ _
    rw [houtput, houtput, houtput]
    exact loop_append xs ys hxs hys
  · exact houtput (.list [])

/-- A loop below a map that its body and its separator read: the list stands in no copy of the map. -/
theorem loop_laws_nested :
    let page : Value := .map [("tags", .null), ("title", .string "t")]
    let scope := (Scope.root [("page", page)]).bind "it" (.string "outer")
    let body := sequence [lookup "it.x", lookup "page.tags.x", lookup "page.title"]
    let separator := sequence [lookup "page.tags.x", lookup "page"]
    let output (v : Value) := render (scope.bind "page.tags" v) (iteration "page.tags" body separator)
    let item (text : String) : Value := .map [("x", .string text)]
    (item "a").items? = none ∧ output (item "a") = output (.list [item "a"]) ∧
      ([item "a", item "b"] ≠ [] ∧ [item "c"] ≠ []) ∧
      output (.list [item "a", item "b", item "c"]) =
        output (.list [item "a", item "b"]) ++ "btrue" ++ output (.list [item "c"]) ∧
      output (.list [item "c"]) = "cct" := by
  intro page scope body separator output item
  obtain ⟨hsingle, hone, happend, -⟩ := loop_laws scope "page.tags" body (some separator)
  refine ⟨rfl, hsingle (item "a") rfl, ⟨by simp, by simp⟩, ?_, ?_⟩
  · have hparts := happend [item "a", item "b"] [item "c"] (by simp) (by simp)
    exact hparts
  · exact hone (item "c")

end Node
end Stencil
