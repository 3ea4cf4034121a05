import Stencil.Scope

namespace Stencil

namespace Decimal

theorem positional_ne_nil (digits : List Char) (exponent : Int) : positional digits exponent ≠ [] := by
  unfold positional
  dsimp only
  split
  · simp
  · split <;> simp

theorem scientific_ne_nil (plusSign : Bool) (digits : List Char) (exponent : Int) :
    scientific plusSign digits exponent ≠ [] := by
  simp [scientific]

theorem Layout.place_ne_nil (form : Layout) (d : Scaled) : form.place d ≠ [] := by
  unfold Layout.place
  dsimp only
  split
  · simp
  · split
    · exact positional_ne_nil _ _
    · exact scientific_ne_nil _ _ _

/-- No number is written as nothing. -/
theorem Layout.write_ne_empty (form : Layout) (x : Float) : form.write x ≠ "" := by
  unfold Layout.write
  dsimp only
  split
  · simp
  · split
    · simp [String.append_eq_empty_iff]
    · simp [String.append_eq_empty_iff, place_ne_nil]

end Decimal

theorem toString_int_ne_empty (n : Int) : toString n ≠ "" := by
  change n.repr ≠ ""
  cases n with
  | ofNat m => exact Nat.repr_ne_empty
  | negSucc m => simp [Int.repr, String.append_eq_empty_iff]

namespace Value
mutual

/-- A value holds as a condition exactly if it prints as something. -/
theorem truthy_iff_text_ne_empty (v : Value) : v.truthy = true ↔ v.text ≠ "" := by
  cases v with
  | null => simp [truthy, text]
  | bool b => cases b <;> simp [truthy, text]
  | integer n => simpa only [truthy, text, true_iff] using toString_int_ne_empty n.toInt
  | unsigned n =>
    have h : toString n.toNat ≠ "" := Nat.repr_ne_empty
    simpa only [truthy, text, true_iff] using h
  | float x => simpa only [truthy, text, true_iff] using Decimal.Layout.write_ne_empty _ x
  | string s => simp [truthy, text]
  | list items => simpa only [truthy, text] using anyTruthy_iff_itemsText_ne_empty items
  | map entries => simp [truthy, text]

theorem anyTruthy_iff_itemsText_ne_empty (items : List Value) :
    anyTruthy items = true ↔ itemsText items ≠ "" := by
  cases items with
  | nil => simp [anyTruthy, itemsText]
  | cons v rest =>
    have hv := truthy_iff_text_ne_empty v
    have hr := anyTruthy_iff_itemsText_ne_empty rest
    rw [anyTruthy, itemsText, Bool.or_eq_true, hv, hr, Ne, Ne, Ne, String.append_eq_empty_iff]
    exact Classical.not_and_iff_not_or_not.symm

end
end Value

namespace Scope

/-- A path that leads nowhere prints as nothing, and does not hold. -/
theorem truthy_iff_text_ne_empty (scope : Scope) (path : String) :
    scope.truthy path = true ↔ scope.text path ≠ "" := by
  unfold truthy text
  cases scope.lookup path with
  | none => simp
  | some v => exact v.truthy_iff_text_ne_empty

/-- Whether a condition holds is whether it prints as something, for values at any depth and for
    paths in any scope. -/
theorem holds_iff_prints :
    (∀ v : Value, v.truthy = true ↔ v.text ≠ "") ∧
      ∀ (scope : Scope) (path : String), scope.truthy path = true ↔ scope.text path ≠ "" :=
  ⟨Value.truthy_iff_text_ne_empty, truthy_iff_text_ne_empty⟩

end Scope
end Stencil
