import Stencil.Node.Render
import Stencil.Proofs.Overlay

namespace Stencil

namespace Node
mutual

/-- The paths that a node names. -/
def paths : Node → List String
  | text _ => []
  | lookup path => [path]
  | conditional condition thenArm elseArm => condition :: (paths thenArm ++ paths elseArm)
  | iteration source body separator => source :: (paths body ++ separatorPaths separator)
  | sequence nodes => pathsAll nodes

def separatorPaths : Option Node → List String
  | none => []
  | some between => paths between

def pathsAll : List Node → List String
  | [] => []
  | node :: rest => paths node ++ pathsAll rest

end
end Node

namespace Scope

/-- Each of the paths leads to the same value in both scopes, or to none in both. -/
def Agree (paths : List String) (s t : Scope) : Prop := ∀ path ∈ paths, s.lookup path = t.lookup path

variable {s t : Scope}

theorem lookup_bind_congr {path : String} (h : s.lookup path = t.lookup path) (source : String)
    (v : Value) : (s.bind source v).lookup path = (t.bind source v).lookup path := by
  have hresolve : s.resolve (segments path) = t.resolve (segments path) := h
  -- whichever way a binding meets the path, the scope below it is asked for that same path
  simp only [lookup, bind, resolve, hresolve]

namespace Agree

theorem subset {paths others : List String} (h : Agree paths s t) (hsub : others ⊆ paths) :
    Agree others s t :=
  fun path hpath => h path (hsub hpath)

theorem bind {paths : List String} (h : Agree paths s t) (source : String) (v : Value) :
    Agree paths (s.bind source v) (t.bind source v) :=
  fun path hpath => lookup_bind_congr (h path hpath) source v

theorem element {paths : List String} (h : Agree paths s t) (source : String) (v : Value) :
    Agree paths (s.element source v) (t.element source v) :=
  (h.bind source v).bind "it" v

theorem bindAll {paths : List String} (h : Agree paths s t) (bindings : List (String × Value)) :
    Agree paths (s.bindAll bindings) (t.bindAll bindings) := by
  induction bindings generalizing s t with
  | nil => exact h
  | cons b rest ih => exact ih (h.bind b.1 b.2)

theorem text_eq {paths : List String} {path : String} (h : Agree (path :: paths) s t) :
    s.text path = t.text path := by
  have hlookup := h path List.mem_cons_self
  rw [text, text, hlookup]

theorem truthy_eq {paths : List String} {path : String} (h : Agree (path :: paths) s t) :
    s.truthy path = t.truthy path := by
  have hlookup := h path List.mem_cons_self
  rw [truthy, truthy, hlookup]

end Agree
end Scope

namespace Node

open Scope (Agree)

/-- Both runs open the same scopes in their loops, and these agree again. -/
theorem render_congr (s : Scope) (node : Node) :
    ∀ t, Agree node.paths s t → node.render s = node.render t := by
  revert s node
  refine (render.mutual_induct
    (fun s node => ∀ t, Agree (paths node) s t → render s node = render t node)
    (fun s nodes => ∀ t, Agree (pathsAll nodes) s t → renderAll s nodes = renderAll t nodes)
    ?text ?lookup ?holds ?fails ?list ?single ?sequence ?nil ?cons).1
  case text =>
    intro s content t h
    rw [render, render]
  case lookup =>
    intro s path t h
    rw [render, render, h.text_eq]
  case holds =>
    intro s condition thenArm elseArm hs ih t h
    have ht : t.truthy condition = true := by rwa [← h.truthy_eq]
    have harm : Agree thenArm.paths s t := h.subset (by simp [paths])
    rw [render, render, if_pos hs, if_pos ht, ih t harm]
  case fails =>
    intro s condition thenArm elseArm hs ih t h
    have ht : ¬ t.truthy condition = true := by rwa [← h.truthy_eq]
    have harm : Agree elseArm.paths s t := h.subset (by simp [paths])
    rw [render, render, if_neg hs, if_neg ht, ih t harm]
  case list =>
    intro s source body separator items hs ihBody ihBetween t h
    have ht : (t.lookup source).getD .null = .list items := by
      rw [← h source List.mem_cons_self, hs]
    have hbody : (fun v => render (s.element source v) body) =
        fun v => render (t.element source v) body := by
      funext v
      have harm : Agree body.paths s t := h.subset (by simp [paths])
      exact ihBody v _ (harm.element source v)
    rw [render, render, hs, ht]
    simp only [hbody]
    refine congrArg (loop _ · items) ?_
    funext v
    cases separator with
    | none => rfl
    | some between =>
      have harm : Agree between.paths s t := h.subset (by simp [paths, separatorPaths])
      exact ihBetween v _ (harm.element source v)
  case single =>
    intro s source body separator hs ih t h
    have harm : Agree body.paths s t := h.subset (by simp [paths])
    rw [render, render, ← h source List.mem_cons_self]
    generalize (s.lookup source).getD .null = v at hs ih
    have hrender := ih _ (harm.element source v)
    cases v with
    | list items => exact absurd rfl (hs items)
    | _ => exact hrender
  case sequence =>
    intro s nodes ih t h
    rw [render, render, ih t h]
  case nil =>
    intro s t h
    rw [renderAll, renderAll]
  case cons =>
    intro s node rest ihNode ihRest t h
    have hnode : Agree node.paths s t := h.subset (by simp [pathsAll])
    have hrest : Agree (pathsAll rest) s t := h.subset (by simp [pathsAll])
    rw [renderAll, renderAll, ihNode t hnode, ihRest t hrest]

/-- What a node writes hangs on the paths that it names alone, and so it does under any bindings that
    are made over both scopes. -/
theorem render_eq_of_agree {node : Node} {s t : Scope} (h : Agree node.paths s t) :
    node.render s = node.render t ∧
      ∀ bindings, node.render (s.bindAll bindings) = node.render (t.bindAll bindings) :=
  ⟨render_congr s node t h, fun bindings => render_congr _ node _ (h.bindAll bindings)⟩

/-- A loop below a map that the body reads whole: both scopes rebuild the map around each element. -/
theorem render_eq_of_agree_rebuilt :
    let node := iteration "page.tags" (sequence [lookup "page.title", lookup "it"]) (some (lookup "page"))
    let page : Value := .map [("tags", .list [.string "x", .string "y"]), ("title", .string "t")]
    let s := Scope.root [("page", page), ("secret", .string "1")]
    let t := (Scope.root [("page", .null), ("secret", .string "2")]).bind "page" page
    Agree node.paths s t ∧ s.lookup "secret" ≠ t.lookup "secret" ∧
      node.render s = node.render t ∧ node.render s = "txtruety" := by
  intro node page s t
  have hagree : Agree node.paths s t := by
    intro path hpath
    simp only [node, paths, separatorPaths, pathsAll, List.cons_append, List.nil_append,
      List.append_nil, List.mem_cons, List.not_mem_nil, or_false] at hpath
    rcases hpath with rfl | rfl | rfl | rfl <;> rfl
  have hsecret : s.lookup "secret" ≠ t.lookup "secret" := by
    have hs : s.lookup "secret" = some (.string "1") := rfl
    have ht : t.lookup "secret" = some (.string "2") := rfl
    rw [hs, ht]
    simp
  exact ⟨hagree, hsecret, (render_eq_of_agree hagree).1, by rfl⟩

end Node
end Stencil
