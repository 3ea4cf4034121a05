import Stencil.Proofs.Maps
import Stencil.Value.Path

namespace Stencil

theorem segments_ne_nil (path : String) : segments path ≠ [] := by
  intro h
  exact Text.split_ne_nil '.' path.toList (List.map_eq_nil_iff.1 h)

/-- No two paths have the same segments: a path is its segments with dots between. -/
theorem segments_inj {path other : String} (h : segments path = segments other) : path = other := by
  have hpieces : Text.split '.' path.toList = Text.split '.' other.toList :=
    (List.map_inj_right fun _ _ => String.ofList_injective).1 h
  have hjoined := congrArg ['.'].intercalate hpieces
  rw [Text.intercalate_split, Text.intercalate_split] at hjoined
  exact String.toList_inj.1 hjoined

/-- Two paths that name different keys at some place before either ends. -/
def Parting (s t : List String) : Prop := ¬ s <+: t ∧ ¬ t <+: s

instance (s t : List String) : Decidable (Parting s t) :=
  inferInstanceAs (Decidable (¬ s <+: t ∧ ¬ t <+: s))

theorem Parting.symm {s t : List String} (h : Parting s t) : Parting t s := ⟨h.2, h.1⟩

theorem Parting.ne {s t : List String} (h : Parting s t) : s ≠ t := by
  intro he
  exact h.1 (he ▸ List.prefix_refl s)

theorem Parting.ne_nil {s t : List String} (h : Parting s t) : s ≠ [] := by
  rintro rfl
  exact h.1 List.nil_prefix

theorem parting_cons_self {k : String} {s t : List String} :
    Parting (k :: s) (k :: t) ↔ Parting s t := by
  simp [Parting, List.cons_prefix_cons]

namespace Value

theorem get?_map_cons (k : String) (ks : List String) (m : Data) :
    (map m).get? (k :: ks) = (Map.get? k m).bind (get? ks) := by
  rw [get?]
  cases Map.get? k m <;> rfl

/-- Only a map has anything below it. -/
theorem get?_cons (k : String) (ks : List String) (v : Value) :
    v.get? (k :: ks) = (Map.get? k v.entries).bind (get? ks) := by
  cases v with
  | map m => exact get?_map_cons k ks m
  | _ => rfl

theorem get?_append (s t : List String) (v : Value) :
    v.get? (s ++ t) = (v.get? s).bind (get? t) := by
  induction s generalizing v with
  | nil => rfl
  | cons k ks ih =>
    rw [List.cons_append, get?_cons, get?_cons, Option.bind_assoc]
    apply congrArg
    funext w
    exact ih w

theorem get?_insert_append (s t : List String) (new v : Value) :
    (insert s new v).get? (s ++ t) = new.get? t := by
  induction s generalizing v with
  | nil => rfl
  | cons k ks ih =>
    rw [List.cons_append, insert, get?_map_cons, Map.get?_alter_self]
    exact ih _

theorem get?_insert_self (s : List String) (new v : Value) : (insert s new v).get? s = some new := by
  have hbelow := get?_insert_append s [] new v
  rw [List.append_nil] at hbelow
  exact hbelow

/-- Above an inserted value stands what stood there, with the value inserted. -/
theorem get?_insert_above (s t : List String) (new v : Value) :
    (insert (s ++ t) new v).get? s = some (insert t new ((v.get? s).getD null)) := by
  induction s generalizing v with
  | nil => rfl
  | cons k ks ih =>
    rw [List.cons_append, insert, get?_map_cons, Map.get?_alter_self, get?_cons]
    cases Map.get? k v.entries with
    | none =>
      -- a missing value has nothing below it, and neither has null
      have h : (null.get? ks).getD null = null := by cases ks <;> rfl
      simpa [h] using ih null
    | some w => exact ih w

/-- What is inserted at a path takes the place of all that was inserted there or below. -/
theorem insert_insert_append (s t : List String) (new old v : Value) :
    insert s new (insert (s ++ t) old v) = insert s new v := by
  induction s generalizing v with
  | nil => rfl
  | cons k ks ih =>
    apply congrArg map
    show Map.alter k _ (Map.alter k _ v.entries) = Map.alter k _ v.entries
    rw [Map.alter_alter_self]
    apply congrArg (Map.alter k · v.entries)
    funext entry
    exact ih (entry.getD null)

theorem insert_insert_self (s : List String) (new old v : Value) :
    insert s new (insert s old v) = insert s new v := by
  have hthere := insert_insert_append s [] new old v
  rw [List.append_nil] at hthere
  exact hthere

/-- Where two paths part, what is inserted at one is not seen at the other. -/
theorem get?_insert_of_parting {s t : List String} (h : Parting s t) (new v : Value) :
    (insert s new v).get? t = v.get? t := by
  induction s generalizing t v with
  | nil => exact absurd rfl h.ne_nil
  | cons k ks ih =>
    cases t with
    | nil => exact absurd rfl h.symm.ne_nil
    | cons l ls =>
      rw [insert, get?_map_cons, get?_cons]
      by_cases hkl : l = k
      · subst hkl
        have htail : Parting ks ls := parting_cons_self.1 h
        rw [Map.get?_alter_self, Option.bind_some, ih htail]
        cases Map.get? l v.entries with
        | none => cases ls with
          | nil => exact absurd rfl htail.symm.ne_nil
          | cons => rfl
        | some w => rfl
      · rw [Map.get?_alter_of_ne hkl]

/-- What is inserted at two parting paths may be inserted in either order. -/
theorem insert_comm {s t : List String} (h : Parting s t) (x y v : Value) :
    insert s x (insert t y v) = insert t y (insert s x v) := by
  induction s generalizing t v with
  | nil => exact absurd rfl h.ne_nil
  | cons k ks ih =>
    cases t with
    | nil => exact absurd rfl h.symm.ne_nil
    | cons l ls =>
      apply congrArg map
      by_cases hkl : k = l
      · subst hkl
        have htail : Parting ks ls := parting_cons_self.1 h
        show Map.alter k _ (Map.alter k _ v.entries) = Map.alter k _ (Map.alter k _ v.entries)
        rw [Map.alter_alter_self, Map.alter_alter_self]
        apply congrArg (Map.alter k · v.entries)
        funext old
        exact ih htail (old.getD null)
      · exact Map.alter_comm hkl _ _ v.entries

/-- On the way to what was inserted there are maps only. -/
theorem get?_insert_map {s above : List String} (h : above <+: s) (hne : above ≠ s) (new v : Value) :
    ∃ entries, (insert s new v).get? above = some (map entries) := by
  obtain ⟨t, rfl⟩ := h
  cases t with
  | nil => exact absurd (List.append_nil above).symm hne
  | cons k ks =>
    rw [get?_insert_above, insert]
    exact ⟨_, rfl⟩

/-- The laws of assigning at a path: what was assigned is found there, with all that is in it, and
    maps lead to it; off the path everything stays; what is assigned later at or above the path
    leaves no trace of it, and assignments at parting paths do not mind their order. -/
theorem insert_laws (v x y : Value) (s t : List String) :
    (insert s x v).get? (s ++ t) = x.get? t ∧
      (∀ above, above <+: s → above ≠ s →
        ∃ entries, (insert s x v).get? above = some (map entries)) ∧
      (Parting s t → (insert s x v).get? t = v.get? t) ∧
      (∀ above, above <+: s → insert above y (insert s x v) = insert above y v) ∧
      (Parting s t → insert t y (insert s x v) = insert s x (insert t y v)) := by
  refine ⟨get?_insert_append s t x v, ?_, ?_, ?_, ?_⟩
  · exact fun _ h hne => get?_insert_map h hne x v
  · exact fun h => get?_insert_of_parting h x v
  · rintro above ⟨below, rfl⟩
    exact insert_insert_append above below y x v
  · exact fun h => (insert_comm h x y v).symm

/-- Below a text, which gives way to a map. -/
theorem insert_laws_belowText :
    let v := map [("a", string "text"), ("z", null)]
    let x := map [("k", bool true)]
    ["a"] <+: ["a", "b"] ∧ ["a"] ≠ ["a", "b"] ∧ Parting ["a", "b"] ["a", "c"] ∧
      (insert ["a", "b"] x v).get? ["a", "b", "k"] = some (bool true) ∧
      (∃ entries, (insert ["a", "b"] x v).get? ["a"] = some (map entries)) ∧
      (insert ["a", "b"] x v).get? ["a", "c"] = none ∧
      insert ["a"] null (insert ["a", "b"] x v) = insert ["a"] null v ∧
      insert ["a", "c"] null (insert ["a", "b"] x v) =
        insert ["a", "b"] x (insert ["a", "c"] null v) := by
  intro v x
  have habove : ["a"] <+: ["a", "b"] := by decide
  have hne : ["a"] ≠ ["a", "b"] := by decide
  have hpart : Parting ["a", "b"] ["a", "c"] := by decide
  obtain ⟨-, hmaps, hoff, hover, hcomm⟩ := insert_laws v x null ["a", "b"] ["a", "c"]
  have hthere := (insert_laws v x null ["a", "b"] ["k"]).1
  exact ⟨habove, hne, hpart, hthere, hmaps _ habove hne, hoff hpart, hover _ habove, hcomm hpart⟩

end Value
end Stencil
