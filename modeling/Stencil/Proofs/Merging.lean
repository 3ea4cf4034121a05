import Mathlib.Logic.Basic
import Stencil.Data.Assignment
import Stencil.Proofs.Sight

namespace Stencil

namespace Value

/-- What an entry laid over a map makes of the one that may be there already. -/
def joined (new : Value) : Option Value → Value
  | some old => merge old new
  | none => new

theorem mergeEntries_cons (base : Data) (key : String) (value : Value)
    (rest : List (String × Value)) :
    mergeEntries base ((key, value) :: rest) =
      mergeEntries (Map.insert key (joined value (Map.get? key base)) base) rest := by
  rw [mergeEntries]
  cases Map.get? key base <;> rfl

/-- An entry of the upper map is joined with the one below it; all other entries stay. -/
theorem get?_mergeEntries {overlay : Data} (h : Map.Ordered overlay) (base : Data) (k : String) :
    Map.get? k (mergeEntries base overlay) =
      match Map.get? k overlay with
      | some new => some (joined new (Map.get? k base))
      | none => Map.get? k base := by
  induction overlay generalizing base with
  | nil => rfl
  | cons e rest ih =>
    obtain ⟨key, value⟩ := e
    obtain ⟨habove, hrest⟩ := List.pairwise_cons.1 h
    rw [mergeEntries_cons, ih hrest, Map.get?_cons_of_ordered h]
    by_cases hk : k = key
    · subst hk
      rw [Map.get?_eq_none_of_lt habove, if_pos rfl]
      exact Map.get?_alter_self k _ base
    · have hbase : Map.get? k (Map.insert key (joined value (Map.get? key base)) base) =
          Map.get? k base := Map.get?_alter_of_ne hk _ base
      rw [if_neg hk, hbase]

theorem ordered_mergeEntries {base : Data} (h : Map.Ordered base) (overlay : Data) :
    Map.Ordered (mergeEntries base overlay) := by
  induction overlay generalizing base with
  | nil => exact h
  | cons e rest ih =>
    rw [mergeEntries_cons]
    exact ih (Map.ordered_insert h e.1 _)

mutual

theorem ordered_merge {base : Value} (hbase : base.Ordered) (upper : Value) (h : upper.Ordered) :
    (merge base upper).Ordered := by
  cases upper with
  | map overlay =>
    cases base with
    | map entries =>
      exact ⟨ordered_mergeEntries hbase.1 overlay,
        entriesOrdered_mergeEntries (entriesOrdered_iff.1 hbase.2) overlay h.2⟩
    | _ => exact h
  | _ => exact h

theorem entriesOrdered_mergeEntries {base : Data} (hbase : ∀ e ∈ base, e.2.Ordered)
    (overlay : List (String × Value)) (h : EntriesOrdered overlay) :
    EntriesOrdered (mergeEntries base overlay) := by
  cases overlay with
  | nil => exact entriesOrdered_iff.2 hbase
  | cons e rest =>
    obtain ⟨key, value⟩ := e
    have hjoined : (joined value (Map.get? key base)).Ordered := by
      cases hold : Map.get? key base with
      | none => exact h.1
      | some old => exact ordered_merge (hbase _ (Map.mem_of_get? hold)) value h.1
    rw [mergeEntries_cons]
    apply entriesOrdered_mergeEntries _ rest h.2
    intro x hx
    rcases Map.mem_insert hx with hx | rfl
    · exact hbase x hx
    · exact hjoined

end

theorem ordered_foldl_merge {base : Value} (hbase : base.Ordered) {layers : List Value}
    (h : ∀ v ∈ layers, v.Ordered) : (layers.foldl merge base).Ordered := by
  induction layers generalizing base with
  | nil => exact hbase
  | cons v rest ih =>
    obtain ⟨hv, hrest⟩ := List.forall_mem_cons.1 h
    exact ih (ordered_merge hbase v hv) hrest

/-- Laid over no entries, a map in order stays as it is. -/
theorem mergeEntries_nil {overlay : Data} (h : Map.Ordered overlay) :
    mergeEntries [] overlay = overlay := by
  apply Map.eq_of_get?_eq (ordered_mergeEntries List.Pairwise.nil overlay) h
  intro k
  rw [get?_mergeEntries h]
  cases Map.get? k overlay <;> rfl

/-- What is not a map has no entries to lay a map over. -/
theorem merge_map {overlay : Data} (h : Map.Ordered overlay) (base : Value) :
    merge base (map overlay) = map (mergeEntries base.entries overlay) := by
  cases base with
  | map entries => rfl
  | _ => exact congrArg map (mergeEntries_nil h).symm

/-- At each path the upper value has the last word, or none. -/
theorem sight_merge {upper : Value} (h : upper.Ordered) (base : Value) (path : List String) :
    (merge base upper).sight path =
      if upper.settles path then upper.sight path else base.sight path := by
  induction path generalizing base upper with
  | nil =>
    have hshell : (merge base upper).shell = upper.shell := by
      cases upper with
      | map overlay => rw [merge_map h.1, shell, shell]
      | _ => rfl
    have hsettles : upper.settles [] = true := by rw [settles]
    rw [if_pos hsettles]
    exact congrArg some hshell
  | cons k ks ih =>
    cases upper with
    | map overlay =>
      rw [merge_map h.1, settles_map_cons, sight_cons, sight_cons, sight_cons]
      show (Map.get? k (mergeEntries base.entries overlay)).bind _ =
        if _ then (Map.get? k overlay).bind _ else _
      rw [get?_mergeEntries h.1]
      cases hnew : Map.get? k overlay with
      | none => rfl
      | some new =>
        have hordered : new.Ordered := entriesOrdered_iff.1 h.2 _ (Map.mem_of_get? hnew)
        show (joined new (Map.get? k base.entries)).sight ks =
          if new.settles ks then new.sight ks else _
        cases Map.get? k base.entries with
        | none =>
          by_cases hsettles : new.settles ks
          · rw [if_pos hsettles]
            rfl
          · rw [if_neg hsettles]
            exact sight_of_not_settles hsettles
        | some old => exact ih hordered old
    | _ => rfl

theorem sight_merge_of_overrides {upper : Value} (h : upper.Ordered) {path : List String}
    (hupper : upper.Overrides path) (base : Value) :
    (merge base upper).sight path = upper.sight path := by
  have hsettles : upper.settles path = true := settles_iff.2 (.inl hupper)
  rw [sight_merge h, if_pos hsettles]

theorem sight_merge_of_silent {upper : Value} (h : upper.Ordered) {path : List String}
    (hupper : ¬ upper.Overrides path) (hmap : ¬ upper.MapAt path) (base : Value) :
    (merge base upper).sight path = base.sight path := by
  have hsettles : ¬ upper.settles path = true := fun hs => (settles_iff.1 hs).elim hupper hmap
  rw [sight_merge h, if_neg hsettles]

theorem mapAt_merge {upper : Value} (h : upper.Ordered) {path : List String}
    (hupper : ¬ upper.Overrides path) (base : Value) :
    (merge base upper).MapAt path ↔ base.MapAt path ∨ upper.MapAt path := by
  by_cases hmap : upper.MapAt path
  · have hsettles : upper.settles path = true := settles_iff.2 (.inr hmap)
    have hsight : (merge base upper).sight path = some (map []) := by
      rw [sight_merge h, if_pos hsettles, mapAt_iff_sight.1 hmap]
    exact ⟨fun _ => .inr hmap, fun _ => mapAt_iff_sight.2 hsight⟩
  · have hsight := sight_merge_of_silent h hupper hmap base
    rw [mapAt_iff_sight, hsight, ← mapAt_iff_sight, or_iff_left hmap]

/-- Layers that override nothing at a path can only add a map there. -/
theorem mapAt_foldl_merge {layers : List Value} (h : ∀ v ∈ layers, v.Ordered) {path : List String}
    (hnot : ∀ v ∈ layers, ¬ v.Overrides path) (base : Value) :
    (layers.foldl merge base).MapAt path ↔ base.MapAt path ∨ ∃ v ∈ layers, v.MapAt path := by
  induction layers generalizing base with
  | nil => simp
  | cons v rest ih =>
    obtain ⟨hv, hrest⟩ := List.forall_mem_cons.1 h
    obtain ⟨hvnot, hrestnot⟩ := List.forall_mem_cons.1 hnot
    rw [List.foldl_cons, ih hrest hrestnot, mapAt_merge hv hvnot, or_assoc]
    simp only [List.mem_cons, exists_eq_or_imp]

theorem sight_foldl_merge_of_silent {layers : List Value} (h : ∀ v ∈ layers, v.Ordered)
    {path : List String} (hnot : ∀ v ∈ layers, ¬ v.Overrides path)
    (hmap : ∀ v ∈ layers, ¬ v.MapAt path) (base : Value) :
    (layers.foldl merge base).sight path = base.sight path := by
  induction layers generalizing base with
  | nil => rfl
  | cons v rest ih =>
    obtain ⟨hv, hrest⟩ := List.forall_mem_cons.1 h
    obtain ⟨hvnot, hrestnot⟩ := List.forall_mem_cons.1 hnot
    obtain ⟨hvmap, hrestmap⟩ := List.forall_mem_cons.1 hmap
    rw [List.foldl_cons, ih hrest hrestnot hrestmap, sight_merge_of_silent hv hvnot hvmap]

theorem sight_foldl_merge_congr {layers : List Value} (h : ∀ v ∈ layers, v.Ordered)
    {path : List String} {base base' : Value} (hbase : base.sight path = base'.sight path) :
    (layers.foldl merge base).sight path = (layers.foldl merge base').sight path := by
  induction layers generalizing base base' with
  | nil => exact hbase
  | cons v rest ih =>
    obtain ⟨hv, hrest⟩ := List.forall_mem_cons.1 h
    apply ih hrest
    rw [sight_merge hv, sight_merge hv, hbase]

/-- Under layers that override nothing at a path, it shows what the base has there, or a map if a
    layer has one. -/
theorem last_word {layers : List Value} (h : ∀ v ∈ layers, v.Ordered) {path : List String}
    (hnot : ∀ v ∈ layers, ¬ v.Overrides path) {base found : Value}
    (hbase : base.sight path = found.sight path) (hfound : ¬ found.MapAt path) :
    ((layers.foldl merge base).MapAt path ↔ ∃ v ∈ layers, v.MapAt path) ∧
      ((∀ v ∈ layers, ¬ v.MapAt path) → (layers.foldl merge base).get? path = found.get? path) := by
  have hno : ¬ base.MapAt path := by rwa [mapAt_iff_sight, hbase, ← mapAt_iff_sight]
  refine ⟨?_, ?_⟩
  · rw [mapAt_foldl_merge h hnot, or_iff_right hno]
  · intro hmap
    apply get?_eq_of_sight_eq _ hfound
    rw [sight_foldl_merge_of_silent h hnot hmap, hbase]

end Value

namespace Data

theorem foldl_put (merged data : Data) :
    data.foldl put merged = Value.mergeEntries merged data := by
  induction data generalizing merged with
  | nil => rfl
  | cons e rest ih =>
    obtain ⟨key, value⟩ := e
    have hput : put merged (key, value) =
        Map.insert key (Value.joined value (Map.get? key merged)) merged := by
      rw [put]
      cases Map.get? key merged <;> rfl
    rw [List.foldl_cons, ih, hput, Value.mergeEntries_cons]

theorem map_foldl_put (merged data : Data) :
    Value.map (data.foldl put merged) = Value.merge (.map merged) (.map data) := by
  rw [foldl_put, Value.merge]

theorem map_merge (maps : List Data) :
    Value.map (merge maps) = (maps.map Value.map).foldl Value.merge (.map []) := by
  rw [List.foldl_map, merge]
  refine (List.foldl_hom Value.map ?_).symm
  intro merged data
  exact (map_foldl_put merged data).symm

theorem ordered_maps {maps : List Data} (h : ∀ m ∈ maps, (Value.map m).Ordered) :
    ∀ v ∈ maps.map Value.map, v.Ordered :=
  List.forall_mem_map.2 h

theorem ordered_merge {maps : List Data} (h : ∀ m ∈ maps, (Value.map m).Ordered) :
    (Value.map (merge maps)).Ordered := by
  have hempty : (Value.map []).Ordered := ⟨List.Pairwise.nil, trivial⟩
  rw [map_merge]
  exact Value.ordered_foldl_merge hempty (ordered_maps h)

/-- What `Value.last_word` says of layers that are maps. -/
theorem last_word {maps : List Data} (h : ∀ m ∈ maps, (Value.map m).Ordered) {path : List String}
    (hnot : ∀ o ∈ maps, ¬ (Value.map o).Overrides path) {base found : Value}
    (hbase : base.sight path = found.sight path) (hfound : ¬ found.MapAt path) :
    (((maps.map Value.map).foldl Value.merge base).MapAt path ↔
        ∃ o ∈ maps, (Value.map o).MapAt path) ∧
      ((∀ o ∈ maps, ¬ (Value.map o).MapAt path) →
        ((maps.map Value.map).foldl Value.merge base).get? path = found.get? path) := by
  have hlayers := Value.last_word (ordered_maps h) (List.forall_mem_map.2 hnot) hbase hfound
  simpa using hlayers

/-- Laying maps over one another is merging them as values, one after the other. What stands at a
    path is decided by the last of them that has something other than a map there or above: those
    that come later can only put a map at the path, and if none does, the path is as that one has it.
    If none decides, the path is a map where one of them has a map there, and else missing. -/
theorem merge_lastWord :
    (∀ maps : List Data,
      Value.map (merge maps) = (maps.map Value.map).foldl Value.merge (.map [])) ∧
    ∀ maps : List Data, (∀ m ∈ maps, (Value.map m).Ordered) → ∀ path ≠ [],
      (∀ before m after, maps = before ++ m :: after → (Value.map m).Overrides path →
        (∀ o ∈ after, ¬ (Value.map o).Overrides path) →
        ((Value.map (merge maps)).MapAt path ↔ ∃ o ∈ after, (Value.map o).MapAt path) ∧
        ((∀ o ∈ after, ¬ (Value.map o).MapAt path) →
          (Value.map (merge maps)).get? path = (Value.map m).get? path)) ∧
      ((∀ o ∈ maps, ¬ (Value.map o).Overrides path) →
        ((Value.map (merge maps)).MapAt path ↔ ∃ o ∈ maps, (Value.map o).MapAt path) ∧
        ((∀ o ∈ maps, ¬ (Value.map o).MapAt path) →
          (Value.map (merge maps)).get? path = none)) := by
  refine ⟨map_merge, ?_⟩
  intro maps hordered path hpath
  rw [map_merge]
  refine ⟨?_, ?_⟩
  · rintro before m after rfl hm hafter
    have hmordered : (Value.map m).Ordered := hordered m (by simp)
    have hafterordered : ∀ o ∈ after, (Value.map o).Ordered := fun o ho => hordered o (by simp [ho])
    rw [List.map_append, List.map_cons, List.foldl_append, List.foldl_cons]
    apply last_word hafterordered hafter
    · exact Value.sight_merge_of_overrides hmordered hm _
    · exact Value.not_mapAt_of_overrides hm
  · intro hnot
    have hempty : (Value.map []).get? path = none := by
      cases path with
      | nil => exact absurd rfl hpath
      | cons k ks => rfl
    have hnotmap : ¬ (Value.map []).MapAt path := by
      rintro ⟨entries, hfound⟩
      rw [hempty] at hfound
      cases hfound
    rw [← hempty]
    exact last_word hordered hnot rfl hnotmap

/-- A text between two maps: the first is cut off, the second takes the place of the text. -/
theorem merge_lastWord_text :
    let below : Data := [("a", .map [("x", .integer 1), ("y", .null)])]
    let text : Data := [("a", .string "s")]
    let above : Data := [("a", .map [("z", .bool true)])]
    (∀ m ∈ [below, text, above], (Value.map m).Ordered) ∧
      (Value.map (merge [below, text, above])).MapAt ["a"] ∧
      (Value.map (merge [below, text, above])).get? ["a", "x"] = none := by
  intro below text above
  have hinner : (Value.map [("x", .integer 1), ("y", .null)]).Ordered :=
    ⟨List.pairwise_pair.2 (by decide), trivial, trivial, trivial⟩
  have hordered : ∀ m ∈ [below, text, above], (Value.map m).Ordered := by
    simp only [List.forall_mem_cons]
    exact ⟨Value.ordered_singleton _ hinner, Value.ordered_singleton _ trivial,
      Value.ordered_singleton _ (Value.ordered_singleton _ trivial), by simp⟩
  have hshortest : ∀ o ∈ [above], ¬ (Value.map o).Overrides ["a"] := by
    simp [above, Value.overrides_cons, Value.overrides_nil, Map.get?, Value.entries?]
  have hlonger : ∀ o ∈ [above], ¬ (Value.map o).Overrides ["a", "x"] := by
    simp [above, Value.overrides_cons, Map.get?]
  have htext : ∀ path, (Value.map text).Overrides ("a" :: path) := by
    intro path
    exact ⟨["a"], .string "s", by simp, rfl, rfl⟩
  obtain ⟨-, hpaths⟩ := merge_lastWord
  obtain ⟨hshort, -⟩ := hpaths [below, text, above] hordered ["a"] (by simp)
  obtain ⟨hlong, -⟩ := hpaths [below, text, above] hordered ["a", "x"] (by simp)
  obtain ⟨hmap, -⟩ := hshort [below] text [above] rfl (htext []) hshortest
  obtain ⟨-, hmissing⟩ := hlong [below] text [above] rfl (htext ["x"]) hlonger
  have hat : (Value.map above).MapAt ["a"] := ⟨_, rfl⟩
  refine ⟨hordered, hmap.2 ⟨above, List.mem_singleton_self above, hat⟩, hmissing ?_⟩
  simp [above, Value.MapAt, Value.get?, Map.get?]

/-- Of a map that is laid on more than once only the last time counts. -/
theorem merge_repeated {first later : List Data} {b : Data}
    (h : ∀ m ∈ first ++ [b] ++ later, (Value.map m).Ordered) :
    merge (first ++ [b] ++ later ++ [b]) = merge (first ++ later ++ [b]) := by
  have hb : (Value.map b).Ordered := h b (by simp)
  have hlater : ∀ v ∈ later.map Value.map, v.Ordered := ordered_maps fun m hm => h m (by simp [hm])
  have hleft : (Value.map (merge (first ++ [b] ++ later ++ [b]))).Ordered := by
    apply ordered_merge
    intro m hm
    apply h m
    grind
  have hright : (Value.map (merge (first ++ later ++ [b]))).Ordered := by
    apply ordered_merge
    intro m hm
    apply h m
    grind
  apply Value.map.inj
  apply Value.eq_of_sight _ hleft hright
  intro path
  simp only [map_merge, List.map_append, List.foldl_append, List.map_cons, List.map_nil,
    List.foldl_cons, List.foldl_nil]
  rw [Value.sight_merge hb, Value.sight_merge hb]
  split
  · rfl
  · -- where the map settles nothing, laying it on has changed nothing
    rename_i hsettles
    apply Value.sight_foldl_merge_congr hlater
    rw [Value.sight_merge hb, if_neg hsettles]

/-- A map laid on below and above a text that takes the place of one of its maps. -/
theorem merge_repeated_text :
    let b : Data := [("a", .map [("x", .integer 1)]), ("b", .null)]
    let below : Data := [("a", .map [("y", .integer 2)])]
    let text : Data := [("a", .string "s"), ("b", .map [("z", .bool true)])]
    (∀ m ∈ [below] ++ [b] ++ [text], (Value.map m).Ordered) ∧
      merge [below, b, text, b] = merge [below, text, b] := by
  intro b below text
  have hkeys : "a" < "b" := by decide
  have hb : (Value.map b).Ordered :=
    ⟨List.pairwise_pair.2 hkeys, Value.ordered_singleton _ trivial, trivial, trivial⟩
  have hbelow : (Value.map below).Ordered :=
    Value.ordered_singleton _ (Value.ordered_singleton _ trivial)
  have htext : (Value.map text).Ordered :=
    ⟨List.pairwise_pair.2 hkeys, trivial, Value.ordered_singleton _ trivial, trivial⟩
  have hordered : ∀ m ∈ [below] ++ [b] ++ [text], (Value.map m).Ordered := by
    simp only [List.cons_append, List.nil_append, List.forall_mem_cons]
    exact ⟨hbelow, hb, htext, by simp⟩
  exact ⟨hordered, merge_repeated hordered⟩

end Data
end Stencil
