import Stencil.Proofs.Path

namespace Stencil.Value

/-- A map stands at the path. -/
def MapAt (v : Value) (path : List String) : Prop := ∃ entries, v.get? path = some (map entries)

/-- Something that is not a map stands at the path or above it. -/
def Overrides (v : Value) (path : List String) : Prop :=
  ∃ above w, above <+: path ∧ v.get? above = some w ∧ w.entries? = none

/-- A value with nothing told of what a map holds. -/
def shell : Value → Value
  | map _ => map []
  | v => v

/-- What is seen at a path if one does not look into maps. -/
def sight (v : Value) (path : List String) : Option Value := (v.get? path).map shell

/-- Whether a value laid over others settles what is seen at a path. One that has nothing there
    leaves the path as it was, unless something that is not a map stands above. -/
def settles : Value → List String → Bool
  | _, [] => true
  | map entries, k :: ks =>
    match Map.get? k entries with
    | some v => settles v ks
    | none => false
  | _, _ :: _ => true

theorem settles_map_cons (entries : Data) (k : String) (ks : List String) :
    (map entries).settles (k :: ks) = ((Map.get? k entries).map (settles · ks)).getD false := by
  rw [settles]
  cases Map.get? k entries <;> rfl

theorem sight_cons (k : String) (ks : List String) (v : Value) :
    v.sight (k :: ks) = (Map.get? k v.entries).bind (sight · ks) := by
  rw [sight, get?_cons]
  cases Map.get? k v.entries <;> rfl

theorem mapAt_iff_sight {v : Value} {path : List String} :
    v.MapAt path ↔ v.sight path = some (map []) := by
  rw [MapAt, sight]
  cases v.get? path with
  | none => simp
  | some w => cases w <;> simp [shell]

theorem eq_of_shell_eq {v w : Value} (h : v.shell = w.shell) (hw : w.entries? = none) : v = w := by
  have hself : w.shell = w := by
    cases w with
    | map => cases hw
    | _ => rfl
  rw [hself] at h
  cases v with
  | map =>
    rw [← h] at hw
    cases hw
  | _ => exact h

/-- What is seen at a path and is not a map is what stands there. -/
theorem get?_eq_of_sight_eq {v w : Value} {path : List String} (h : v.sight path = w.sight path)
    (hw : ¬ w.MapAt path) : v.get? path = w.get? path := by
  rw [sight, sight] at h
  cases hfound : w.get? path with
  | none =>
    rw [hfound] at h
    exact Option.map_eq_none_iff.1 h
  | some x =>
    have hx : x.entries? = none := by
      cases x with
      | map entries => exact absurd ⟨entries, hfound⟩ hw
      | _ => rfl
    rw [hfound] at h
    obtain ⟨y, hy, hshell⟩ := Option.map_eq_some_iff.1 h
    rw [hy, eq_of_shell_eq hshell hx]

theorem not_mapAt_of_overrides {v : Value} {path : List String} (h : v.Overrides path) :
    ¬ v.MapAt path := by
  obtain ⟨above, w, ⟨below, rfl⟩, hw, hentries⟩ := h
  rintro ⟨entries, hfound⟩
  rw [get?_append, hw, Option.bind_some] at hfound
  cases w with
  | map => cases hentries
  | _ => cases below <;> cases hfound

theorem overrides_of_not_map {v : Value} (h : v.entries? = none) (path : List String) :
    v.Overrides path :=
  ⟨[], v, List.nil_prefix, rfl, h⟩

theorem overrides_nil {v : Value} : v.Overrides [] ↔ v.entries? = none := by
  constructor
  · rintro ⟨above, w, hprefix, hw, hentries⟩
    rw [List.prefix_nil.1 hprefix] at hw
    cases hw
    exact hentries
  · exact fun h => overrides_of_not_map h []

theorem overrides_cons {entries : Data} {k : String} {ks : List String} :
    (map entries).Overrides (k :: ks) ↔ ∃ v, Map.get? k entries = some v ∧ v.Overrides ks := by
  constructor
  · rintro ⟨above, w, hprefix, hw, hentries⟩
    cases above with
    | nil =>
      cases hw
      cases hentries
    | cons l above =>
      obtain ⟨rfl, htail⟩ := List.cons_prefix_cons.1 hprefix
      rw [get?_map_cons] at hw
      obtain ⟨v, hv, hfound⟩ := Option.bind_eq_some_iff.1 hw
      exact ⟨v, hv, above, w, htail, hfound, hentries⟩
  · rintro ⟨v, hv, above, w, hprefix, hw, hentries⟩
    refine ⟨k :: above, w, List.cons_prefix_cons.2 ⟨rfl, hprefix⟩, ?_, hentries⟩
    rw [get?_map_cons, hv]
    exact hw

theorem mapAt_cons {entries : Data} {k : String} {ks : List String} :
    (map entries).MapAt (k :: ks) ↔ ∃ v, Map.get? k entries = some v ∧ v.MapAt ks := by
  rw [MapAt, get?_map_cons]
  cases Map.get? k entries with
  | none => simp
  | some v => simp [MapAt]

/-- A value settles a path by something that is not a map, or by a map at the path itself. -/
theorem settles_iff {v : Value} {path : List String} :
    v.settles path = true ↔ v.Overrides path ∨ v.MapAt path := by
  induction path generalizing v with
  | nil =>
    have hsettles : v.settles [] = true := by rw [settles]
    cases v with
    | map entries => exact ⟨fun _ => .inr ⟨entries, rfl⟩, fun _ => hsettles⟩
    | _ => exact ⟨fun _ => .inl (overrides_of_not_map rfl []), fun _ => hsettles⟩
  | cons k ks ih =>
    cases v with
    | map entries =>
      rw [settles_map_cons, overrides_cons, mapAt_cons]
      cases Map.get? k entries with
      | none => simp
      | some w => simpa using ih
    | _ => exact ⟨fun _ => .inl (overrides_of_not_map rfl (k :: ks)), fun _ => rfl⟩

/-- Where a value settles nothing, it has nothing. -/
theorem sight_of_not_settles {v : Value} {path : List String} (h : ¬ v.settles path = true) :
    v.sight path = none := by
  cases hfound : v.get? path with
  | none => rw [sight, hfound, Option.map_none]
  | some w =>
    apply absurd (settles_iff.2 _) h
    cases w with
    | map entries => exact .inr ⟨entries, hfound⟩
    | _ => exact .inl ⟨path, _, List.prefix_refl path, hfound, rfl⟩

theorem found_of_sight {a b : Option Value}
    (h : ∀ path, a.bind (sight · path) = b.bind (sight · path)) :
    (a = none ∧ b = none) ∨
      ∃ v w, a = some v ∧ b = some w ∧ ∀ path, v.sight path = w.sight path := by
  cases a with
  | none =>
    cases b with
    | none => exact .inl ⟨rfl, rfl⟩
    | some w => cases h []
  | some v =>
    cases b with
    | none => cases h []
    | some w => exact .inr ⟨v, w, rfl, rfl, h⟩

mutual

/-- Values in order that look the same at every path are the same. -/
theorem eq_of_sight (v : Value) {w : Value} (hv : v.Ordered) (hw : w.Ordered)
    (h : ∀ path, v.sight path = w.sight path) : v = w := by
  have hshell : v.shell = w.shell := Option.some.inj (h [])
  cases w with
  | map others =>
    cases v with
    | map entries =>
      apply congrArg map
      apply Map.eq_of_get?_eq hv.1 hw.1
      intro k
      have hbelow : ∀ path, (Map.get? k entries).bind (sight · path) =
          (Map.get? k others).bind (sight · path) := by
        intro path
        have hpath := h (k :: path)
        rwa [sight_cons, sight_cons] at hpath
      rcases found_of_sight hbelow with ⟨hx, hy⟩ | ⟨x, y, hx, hy, hxy⟩
      · rw [hx, hy]
      · have hyordered : y.Ordered := entriesOrdered_iff.1 hw.2 _ (Map.mem_of_get? hy)
        have heq : x = y := entry_eq_of_sight entries hv.2 _ (Map.mem_of_get? hx) hyordered hxy
        rw [hx, hy, heq]
    | _ => cases hshell
  | _ => exact eq_of_shell_eq hshell rfl

theorem entry_eq_of_sight (entries : List (String × Value)) (hentries : EntriesOrdered entries)
    (e : String × Value) (he : e ∈ entries) {w : Value} (hw : w.Ordered)
    (h : ∀ path, e.2.sight path = w.sight path) : e.2 = w := by
  cases entries with
  | nil => cases he
  | cons first rest =>
    obtain ⟨key, v⟩ := first
    rcases List.mem_cons.1 he with rfl | he
    · exact eq_of_sight v hentries.1 hw h
    · exact entry_eq_of_sight rest hentries.2 e he hw h

end

end Stencil.Value
