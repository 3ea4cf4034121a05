import Stencil.Proofs.Path
import Stencil.Scope

namespace Stencil

def Value.assignAll (v : Value) (bindings : List (String × Value)) : Value :=
  bindings.foldl (fun v (path, new) => Value.insertPath path new v) v

namespace Scope

def bindAll (scope : Scope) (bindings : List (String × Value)) : Scope :=
  bindings.foldl (fun scope (path, value) => scope.bind path value) scope

/-- The data of a scope copied, and each binding assigned into the copy. -/
def copy : Scope → Value
  | root data => .map data
  | bound parent path value => Value.insertPath path value parent.copy

theorem copy_bindAll (scope : Scope) (bindings : List (String × Value)) :
    (scope.bindAll bindings).copy = scope.copy.assignAll bindings := by
  induction bindings generalizing scope with
  | nil => rfl
  | cons b rest ih => exact ih (scope.bind b.1 b.2)

/-- A binding is seen from a path below it, from a path to a map that holds it, and from nowhere
    else. -/
theorem resolve_eq_get?_copy (scope : Scope) {sought : List String} (h : sought ≠ []) :
    scope.resolve sought = scope.copy.get? sought := by
  induction scope with
  | root data =>
    cases sought with
    | nil => exact absurd rfl h
    | cons k ks =>
      rw [resolve, copy, Value.get?_map_cons]
      cases Map.get? k data <;> rfl
  | bound parent path value ih =>
    rw [copy, Value.insertPath]
    simp only [resolve, List.isPrefixOf_iff_prefix]
    by_cases through : segments path <+: sought
    · obtain ⟨t, rfl⟩ := through
      simp [Value.get?_insert_append]
    by_cases within : sought <+: segments path
    · rw [if_neg through, if_pos within, ih]
      obtain ⟨t, ht⟩ := within
      obtain ⟨k, ks, rfl⟩ : ∃ k ks, t = k :: ks := by
        cases t with
        | nil => exact absurd ⟨[], by simpa using ht.symm⟩ through
        | cons k ks => exact ⟨k, ks, rfl⟩
      rw [← ht, Value.get?_insert_above, List.drop_left]
      -- only the entries of what stands there count
      cases hv : parent.copy.get? sought with
      | none => rfl
      | some v => cases v <;> rfl
    · rw [if_neg through, if_neg within, ih, Value.get?_insert_of_parting ⟨through, within⟩]

theorem lookup_eq_get?_copy (scope : Scope) (path : String) :
    scope.lookup path = scope.copy.get? (segments path) :=
  resolve_eq_get?_copy scope (segments_ne_nil path)

/-- Looking up through bindings finds what is found in a copy of the data in which they were
    assigned in the same order. -/
theorem lookup_bindAll_root (data : Data) (bindings : List (String × Value)) (path : String) :
    ((root data).bindAll bindings).lookup path =
      ((Value.map data).assignAll bindings).get? (segments path) := by
  rw [lookup_eq_get?_copy, copy_bindAll, copy]

end Scope
end Stencil
