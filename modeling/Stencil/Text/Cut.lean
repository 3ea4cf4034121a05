namespace Stencil.Text

/-- The text before the first `stop` and the text after it. -/
def cut? (stop : Char) : List Char → Option (List Char × List Char)
  | [] => none
  | c :: cs => if c = stop then some ([], cs) else (cut? stop cs).map fun (a, b) => (c :: a, b)

/-- The pieces between all occurrences of `sep`; a text without any is one piece. -/
def split (sep : Char) : List Char → List (List Char)
  | [] => [[]]
  | c :: cs =>
    if c = sep then [] :: split sep cs
    else match split sep cs with
      | [] => [[c]]
      | piece :: pieces => (c :: piece) :: pieces

theorem cut?_eq_some_iff {stop : Char} {cs a b : List Char} :
    cut? stop cs = some (a, b) ↔ cs = a ++ stop :: b ∧ stop ∉ a := by
  induction cs generalizing a b with
  | nil => simp [cut?]
  | cons c cs ih =>
    by_cases h : c = stop
    · subst h
      simp only [cut?, if_true, Option.some.injEq, Prod.mk.injEq]
      constructor
      · rintro ⟨rfl, rfl⟩; simp
      · rintro ⟨h1, h2⟩
        cases a with
        | nil => simp_all
        | cons x xs =>
          simp only [List.cons_append, List.cons.injEq] at h1
          simp [h1.1] at h2
    · simp only [cut?, h, if_false, Option.map_eq_some_iff, Prod.exists, Prod.mk.injEq]
      constructor
      · rintro ⟨x, y, hxy, rfl, rfl⟩
        obtain ⟨h1, h2⟩ := ih.1 hxy
        exact ⟨by simp [h1], by simp [h2, Ne.symm h]⟩
      · rintro ⟨h1, h2⟩
        cases a with
        | nil => simp only [List.nil_append, List.cons.injEq] at h1; exact absurd h1.1 h
        | cons x xs =>
          simp only [List.cons_append, List.cons.injEq, List.mem_cons, not_or] at h1 h2
          exact ⟨xs, b, ih.2 ⟨h1.2, h2.2⟩, by rw [h1.1], rfl⟩

theorem cut?_eq_none_iff {stop : Char} {cs : List Char} : cut? stop cs = none ↔ stop ∉ cs := by
  induction cs with
  | nil => simp [cut?]
  | cons c cs ih =>
    by_cases h : c = stop
    · simp [cut?, h]
    · simp [cut?, h, ih, Ne.symm h]

/-- Two texts with the same first `stop` in them agree before it and after it. -/
theorem append_cons_inj {stop : Char} {a a' b b' : List Char} (ha : stop ∉ a) (ha' : stop ∉ a')
    (h : a ++ stop :: b = a' ++ stop :: b') : a = a' ∧ b = b' := by
  have hcut : cut? stop (a ++ stop :: b) = some (a, b) := cut?_eq_some_iff.2 ⟨rfl, ha⟩
  have hcut' : cut? stop (a ++ stop :: b) = some (a', b') := cut?_eq_some_iff.2 ⟨h, ha'⟩
  exact Prod.mk.inj (Option.some.inj (hcut.symm.trans hcut'))

theorem split_ne_nil (sep : Char) (cs : List Char) : split sep cs ≠ [] := by
  cases cs with
  | nil => simp [split]
  | cons c cs =>
    unfold split
    split
    · simp
    · split <;> simp

theorem split_of_not_mem {sep : Char} {cs : List Char} (h : sep ∉ cs) : split sep cs = [cs] := by
  induction cs with
  | nil => rfl
  | cons c cs ih =>
    obtain ⟨hc, hcs⟩ : sep ≠ c ∧ sep ∉ cs := by simpa using h
    rw [split, if_neg (Ne.symm hc), ih hcs]

theorem split_append {sep : Char} {piece : List Char} (h : sep ∉ piece) (cs : List Char) :
    split sep (piece ++ sep :: cs) = piece :: split sep cs := by
  induction piece with
  | nil => exact if_pos rfl
  | cons c piece ih =>
    obtain ⟨hc, hpiece⟩ : sep ≠ c ∧ sep ∉ piece := by simpa using h
    rw [List.cons_append, split, if_neg (Ne.symm hc), ih hpiece]

theorem intercalate_split (sep : Char) (cs : List Char) : [sep].intercalate (split sep cs) = cs := by
  induction cs with
  | nil => simp [split]
  | cons c cs ih =>
    by_cases hc : c = sep
    · subst hc
      rw [split, if_pos rfl, List.intercalate_cons_of_ne_nil (split_ne_nil c cs), ih]
      rfl
    · rw [split, if_neg hc]
      cases hpieces : split sep cs with
      | nil => exact absurd hpieces (split_ne_nil sep cs)
      | cons piece pieces =>
        rw [hpieces] at ih
        rw [← ih]
        cases pieces <;> simp

end Stencil.Text
