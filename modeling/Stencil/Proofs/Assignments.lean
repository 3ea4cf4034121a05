import Stencil.Proofs.Merging
import Stencil.Proofs.Overlay

namespace Stencil

namespace Assignment

/-- The keys that are assigned to, in the order in which they first came. -/
def keys (assignments : List Assignment) : List String := (assignments.map key).eraseDups

/-- The texts given for a key, in order. -/
def texts (key : String) (assignments : List Assignment) : List String :=
  (assignments.filter fun a => a.key == key).map value

/-- What a key is to stand for: its text if it came once, else the list of all its texts. -/
def assigned (key : String) (assignments : List Assignment) : Value :=
  match texts key assignments with
  | [text] => .string text
  | texts => .list (texts.map .string)

theorem keys_cons (a : Assignment) (rest : List Assignment) :
    keys (a :: rest) = a.key :: keys (rest.filter fun b => !b.key == a.key) := by
  rw [keys, List.map_cons, List.eraseDups_cons, List.filter_map]
  rfl

theorem texts_cons_self (a : Assignment) (rest : List Assignment) :
    texts a.key (a :: rest) = a.value :: texts a.key rest := by
  simp [texts]

theorem texts_cons_of_ne {a : Assignment} {key : String} (h : a.key ≠ key)
    (rest : List Assignment) : texts key (a :: rest) = texts key rest := by
  simp [texts, h]

theorem mem_keys {key : String} {assignments : List Assignment} :
    key ∈ keys assignments ↔ ∃ a ∈ assignments, a.key = key := by
  rw [keys, List.mem_eraseDups, List.mem_map]

/-- The group in front takes in the texts of its key, all others go past it. -/
theorem foldl_addTo_cons (key : String) (values : List String) (later : List (String × List String))
    (assignments : List Assignment) :
    assignments.foldl (fun groups a => addTo a.key a.value groups) ((key, values) :: later) =
      (key, values ++ texts key assignments) ::
        (assignments.filter fun a => !a.key == key).foldl
          (fun groups a => addTo a.key a.value groups) later := by
  induction assignments generalizing values later with
  | nil => simp [texts]
  | cons a rest ih =>
    rw [List.foldl_cons, addTo]
    by_cases hkey : key = a.key
    · subst hkey
      rw [if_pos rfl, ih, texts_cons_self]
      simp
    · have hne : ¬ a.key = key := Ne.symm hkey
      rw [if_neg hkey, ih]
      simp [texts, hne]

theorem groups_cons (a : Assignment) (rest : List Assignment) :
    groups (a :: rest) =
      (a.key, texts a.key (a :: rest)) :: groups (rest.filter fun b => !b.key == a.key) := by
  rw [texts_cons_self]
  exact foldl_addTo_cons a.key [a.value] [] rest

theorem texts_filter {key other : String} (h : key ≠ other) (assignments : List Assignment) :
    texts key (assignments.filter fun a => !a.key == other) = texts key assignments := by
  rw [texts, texts, List.filter_filter]
  apply congrArg (List.map value)
  apply List.filter_congr
  intro a _
  by_cases hkey : a.key = key
  · simp [hkey, h]
  · simp [hkey]

/-- Grouping gives each key its texts. -/
theorem groups_eq (assignments : List Assignment) :
    groups assignments = (keys assignments).map fun key => (key, texts key assignments) := by
  match assignments with
  | [] => rfl
  | a :: rest =>
    have hshorter : (rest.filter fun b => !b.key == a.key).length ≤ rest.length :=
      List.length_filter_le _ rest
    rw [groups_cons, groups_eq, keys_cons, List.map_cons]
    apply congrArg
    apply List.map_congr_left
    intro key hkey
    obtain ⟨b, hb, rfl⟩ := mem_keys.1 hkey
    have hne : b.key ≠ a.key := by simpa using (List.mem_filter.1 hb).2
    rw [texts_filter hne, texts_cons_of_ne hne.symm]
termination_by assignments.length

theorem assigned_eq_groupValue (key : String) (assignments : List Assignment) :
    assigned key assignments = groupValue (texts key assignments) := by
  rw [assigned]
  cases texts key assignments with
  | nil => rfl
  | cons text more => cases more <;> rfl

theorem entries?_assigned (key : String) (assignments : List Assignment) :
    (assigned key assignments).entries? = none := by
  rw [assigned]
  split <;> rfl

end Assignment

namespace Value

/-- The value that has nothing but another at a path below it. -/
def nest : List String → Value → Value
  | [], v => v
  | k :: ks, v => map [(k, nest ks v)]

theorem insert_null (ks : List String) (v : Value) : insert ks v null = nest ks v := by
  induction ks with
  | nil => rfl
  | cons k ks ih => exact congrArg (fun w => map [(k, w)]) ih

/-- Inserting a value that is not a map is laying it, nested, over what is there. -/
theorem merge_nest {v : Value} (h : v.entries? = none) (ks : List String) (base : Value) :
    merge base (nest ks v) = insert ks v base := by
  induction ks generalizing base with
  | nil =>
    cases v with
    | map => cases h
    | _ => rfl
  | cons k ks ih =>
    have hordered : Map.Ordered [(k, nest ks v)] := List.pairwise_singleton _ _
    have hjoined : joined (nest ks v) (Map.get? k base.entries) =
        insert ks v ((Map.get? k base.entries).getD null) := by
      cases Map.get? k base.entries with
      | none => exact (insert_null ks v).symm
      | some old => exact ih old
    rw [nest, merge_map hordered, mergeEntries_cons, hjoined, insert, Map.alter_eq_insert]
    rfl

theorem get?_assignAll_of_parting {bindings : List (String × Value)} {path : List String}
    (h : ∀ b ∈ bindings, Parting (segments b.1) path) (v : Value) :
    (v.assignAll bindings).get? path = v.get? path := by
  induction bindings generalizing v with
  | nil => rfl
  | cons b rest ih =>
    obtain ⟨hb, hrest⟩ := List.forall_mem_cons.1 h
    have hstep : (Value.insertPath b.1 b.2 v).get? path = v.get? path :=
      get?_insert_of_parting hb b.2 v
    rw [← hstep]
    exact ih hrest (Value.insertPath b.1 b.2 v)

end Value

namespace Data

theorem map_insert (data : Data) (v : Value) {path : List String} (h : path ≠ []) :
    Value.map (Data.insert data v path) = Value.insert path v (.map data) := by
  cases path with
  | nil => exact absurd rfl h
  | cons k ks => rfl

/-- Every key is given what is assigned to it, in the order in which the keys first came. -/
theorem assign_eq_foldl (data : Data) (assignments : List Assignment) :
    data.assign assignments = (Assignment.keys assignments).foldl
      (fun data key => Data.insert data (Assignment.assigned key assignments) (segments key))
      data := by
  rw [assign, Assignment.groups_eq, List.foldl_map]
  simp only [Assignment.assigned_eq_groupValue]

theorem map_assign (data : Data) (assignments : List Assignment) :
    Value.map (data.assign assignments) = (Value.map data).assignAll
      ((Assignment.keys assignments).map fun key => (key, Assignment.assigned key assignments)) := by
  rw [assign_eq_foldl, Value.assignAll, List.foldl_map]
  refine (List.foldl_hom Value.map ?_).symm
  intro data key
  exact (map_insert data _ (segments_ne_nil key)).symm

/-- Data that has a value at a path and nothing beside it. -/
def nest (v : Value) : List String → Data
  | [] => []
  | k :: ks => [(k, Value.nest ks v)]

theorem foldl_put_nest {v : Value} (h : v.entries? = none) (data : Data) {path : List String}
    (hpath : path ≠ []) : (nest v path).foldl put data = insert data v path := by
  cases path with
  | nil => exact absurd rfl hpath
  | cons k ks =>
    apply Value.map.inj
    rw [map_foldl_put, map_insert data v hpath]
    exact Value.merge_nest h (k :: ks) (.map data)

/-- Assigning is laying data on that has nothing but what is assigned, a key after the other in the
    order in which they first came. It is as well inserting at each of these keys. -/
theorem assign_eq_merge {data : Data} (h : Map.Ordered data) (assignments : List Assignment) :
    data.assign assignments = merge (data :: (Assignment.keys assignments).map fun key =>
        nest (Assignment.assigned key assignments) (segments key)) ∧
      Value.map (data.assign assignments) = (Value.map data).assignAll
        ((Assignment.keys assignments).map fun key =>
          (key, Assignment.assigned key assignments)) := by
  refine ⟨?_, map_assign data assignments⟩
  have hstep : ∀ (data : Data) (key : String),
      (nest (Assignment.assigned key assignments) (segments key)).foldl put data =
        insert data (Assignment.assigned key assignments) (segments key) := by
    intro data key
    exact foldl_put_nest (Assignment.entries?_assigned key assignments) data (segments_ne_nil key)
  have hbase : data.foldl put [] = data := by rw [foldl_put, Value.mergeEntries_nil h]
  rw [assign_eq_foldl, merge, List.foldl_cons, hbase, List.foldl_map]
  simp only [hstep]

/-- A key below a text is assigned to twice, with another key in between. -/
theorem assign_eq_merge_repeatedKey :
    let data : Data := [("a", .string "s"), ("b", .map [("c", .integer 1)])]
    let assignments : List Assignment := [⟨"a.x", "1"⟩, ⟨"b.d", "2"⟩, ⟨"a.x", "3"⟩]
    let listed : Data := [("a", .map [("x", .list [.string "1", .string "3"])])]
    let single : Data := [("b", .map [("d", .string "2")])]
    Map.Ordered data ∧ data.assign assignments = merge [data, listed, single] ∧
      Value.map (data.assign assignments) =
        .map [("a", .map [("x", .list [.string "1", .string "3"])]),
          ("b", .map [("c", .integer 1), ("d", .string "2")])] := by
  intro data assignments listed single
  have hordered : Map.Ordered data := List.pairwise_pair.2 (by decide)
  obtain ⟨hmerge, hinsert⟩ := assign_eq_merge hordered assignments
  exact ⟨hordered, hmerge, hinsert⟩

theorem insert_comm {s t : List String} (h : Parting s t) (data : Data) (x y : Value) :
    insert (insert data y t) x s = insert (insert data x s) y t := by
  have hs : s ≠ [] := h.ne_nil
  have ht : t ≠ [] := h.symm.ne_nil
  apply Value.map.inj
  rw [map_insert _ _ hs, map_insert _ _ ht, map_insert _ _ ht, map_insert _ _ hs]
  exact Value.insert_comm h x y (.map data)

end Data

namespace Assignment

theorem texts_append (key : String) (first later : List Assignment) :
    texts key (first ++ later) = texts key first ++ texts key later := by
  simp [texts]

theorem assigned_swap {a b : Assignment} (h : a.key ≠ b.key) (key : String)
    (before after : List Assignment) :
    assigned key (before ++ a :: b :: after) = assigned key (before ++ b :: a :: after) := by
  have hpair : texts key (a :: b :: after) = texts key (b :: a :: after) := by
    by_cases ha : a.key = key
    · have hb : b.key ≠ key := fun hb => h (ha.trans hb.symm)
      rw [texts_cons_of_ne hb, ← ha, texts_cons_self, texts_cons_self, texts_cons_of_ne h.symm]
    · rw [texts_cons_of_ne ha]
      by_cases hb : b.key = key
      · rw [← hb, texts_cons_self, texts_cons_self, texts_cons_of_ne h]
      · rw [texts_cons_of_ne hb, texts_cons_of_ne hb, texts_cons_of_ne ha]
  rw [assigned, assigned, texts_append, texts_append, hpair]

theorem eraseDups_cons_cons {k l : String} (h : k ≠ l) (rest : List String) :
    (k :: l :: rest).eraseDups = k :: l :: (rest.filter fun x => !x == l && !x == k).eraseDups := by
  have hkeep : (l :: rest).filter (fun x => !x == k) = l :: rest.filter fun x => !x == k := by
    simp [h.symm]
  rw [List.eraseDups_cons, hkeep, List.eraseDups_cons, List.filter_filter]

/-- Swapping two neighbours swaps them among the distinct entries, where both come for the first
    time. Elsewhere it changes nothing. -/
theorem eraseDups_swap {k l : String} (h : k ≠ l) (before after : List String) :
    (before ++ k :: l :: after).eraseDups = (before ++ l :: k :: after).eraseDups ∨
      ∃ first later, (before ++ k :: l :: after).eraseDups = first ++ k :: l :: later ∧
        (before ++ l :: k :: after).eraseDups = first ++ l :: k :: later := by
  rw [List.eraseDups_append, List.eraseDups_append]
  by_cases hk : k ∈ before
  · apply Or.inl
    simp [List.removeAll, List.filter_cons, hk]
  by_cases hl : l ∈ before
  · apply Or.inl
    simp [List.removeAll, List.filter_cons, hl]
  have hleft : (k :: l :: after).removeAll before = k :: l :: after.removeAll before := by
    simp [List.removeAll, hk, hl]
  have hright : (l :: k :: after).removeAll before = l :: k :: after.removeAll before := by
    simp [List.removeAll, hk, hl]
  apply Or.inr
  rw [hleft, hright, eraseDups_cons_cons h, eraseDups_cons_cons h.symm]
  refine ⟨_, _, rfl, ?_⟩
  simp only [Bool.and_comm]

end Assignment

namespace Data

theorem assign_swap (data : Data) {a b : Assignment}
    (h : Parting (segments a.key) (segments b.key)) (before after : List Assignment) :
    data.assign (before ++ a :: b :: after) = data.assign (before ++ b :: a :: after) := by
  have hne : a.key ≠ b.key := fun heq => h.ne (congrArg segments heq)
  rw [assign_eq_foldl, assign_eq_foldl, Assignment.keys, Assignment.keys, List.map_append,
    List.map_append]
  simp only [Assignment.assigned_swap hne, List.map_cons]
  rcases Assignment.eraseDups_swap hne (before.map Assignment.key) (after.map Assignment.key) with
    hsame | ⟨first, later, hleft, hright⟩
  · rw [hsame]
  · rw [hleft, hright, List.foldl_append, List.foldl_append]
    simp only [List.foldl_cons]
    rw [insert_comm h]

theorem get?_assign_of_parting (data : Data) {assignments : List Assignment} {path : List String}
    (h : ∀ a ∈ assignments, Parting (segments a.key) path) :
    (Value.map (data.assign assignments)).get? path = (Value.map data).get? path := by
  rw [map_assign]
  apply Value.get?_assignAll_of_parting
  intro binding hbinding
  obtain ⟨key, hkey, rfl⟩ := List.mem_map.1 hbinding
  obtain ⟨a, ha, rfl⟩ := Assignment.mem_keys.1 hkey
  exact h a ha

/-- Assignments to keys that part are carried out in either order, and what parts from every key
    that is assigned to stays as it was. -/
theorem assign_independent (data : Data) :
    (∀ before after a b, Parting (segments a.key) (segments b.key) →
      data.assign (before ++ a :: b :: after) = data.assign (before ++ b :: a :: after)) ∧
    ∀ assignments path, (∀ a ∈ assignments, Parting (segments a.key) path) →
      (Value.map (data.assign assignments)).get? path = (Value.map data).get? path :=
  ⟨fun before after _ _ h => assign_swap data h before after,
    fun _ _ h => get?_assign_of_parting data h⟩

/-- A swap that changes which of two keys below a number comes first. -/
theorem assign_independent_siblings :
    let data : Data := [("a", .integer 5), ("c", .map [("d", .bool true)])]
    let x : Assignment := ⟨"a.x", "1"⟩
    let y : Assignment := ⟨"a.y", "2"⟩
    let again : Assignment := ⟨"a.x", "3"⟩
    Parting (segments x.key) (segments y.key) ∧
      data.assign [x, y, again] = data.assign [y, x, again] ∧
      (∀ a ∈ [x, y, again], Parting (segments a.key) ["c", "d"]) ∧
      (Value.map (data.assign [x, y, again])).get? ["c", "d"] = some (.bool true) := by
  intro data x y again
  have hkeys : Parting (segments x.key) (segments y.key) := by decide
  have hpath : ∀ a ∈ [x, y, again], Parting (segments a.key) ["c", "d"] := by decide
  obtain ⟨hswap, hframe⟩ := assign_independent data
  exact ⟨hkeys, hswap [] [again] x y hkeys, hpath, hframe [x, y, again] ["c", "d"] hpath⟩

end Data
end Stencil
