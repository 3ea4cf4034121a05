import Stencil.Proofs.Assignments

namespace Stencil

namespace Value

/-- At the path there is nothing, or a map that stands around what is below it. -/
def Covered (v : Value) (path : List String) : Prop := v.get? path = none ∨ v.MapAt path

theorem Covered.ne {v new : Value} {path : List String} (h : v.Covered path)
    (hnew : new.entries? = none) : v.get? path ≠ some new := by
  intro hfound
  rcases h with hnone | ⟨entries, hmap⟩
  · rw [hnone] at hfound
    cases hfound
  · rw [hmap] at hfound
    cases hfound
    cases hnew

/-- A value that is not a map covers every other path that it does not part from: above the path it
    cuts off what stood there, below it a map has to hold it. -/
theorem covered_insert {s t : List String} (hne : s ≠ t) (hparting : ¬ Parting s t) {new : Value}
    (hnew : new.entries? = none) (v : Value) : (insert s new v).Covered t := by
  by_cases habove : s <+: t
  · obtain ⟨below, rfl⟩ := habove
    apply Or.inl
    rw [get?_insert_append]
    cases below with
    | nil => exact absurd (List.append_nil s).symm hne
    | cons k ks =>
      cases new with
      | map entries => cases hnew
      | _ => rfl
  · have hbelow : t <+: s := Decidable.not_not.1 fun hnot => hparting ⟨habove, hnot⟩
    obtain ⟨below, rfl⟩ := hbelow
    apply Or.inr
    cases below with
    | nil => exact absurd (List.append_nil t) hne
    | cons k ks => exact ⟨_, get?_insert_above t (k :: ks) new v⟩

theorem Covered.insert {s t : List String} (hne : s ≠ t) {new v : Value}
    (hnew : new.entries? = none) (h : v.Covered t) : (insert s new v).Covered t := by
  by_cases hparting : Parting s t
  · rw [Covered, MapAt, get?_insert_of_parting hparting]
    exact h
  · exact covered_insert hne hparting hnew v

/-- Of bindings that are made at other paths, one that does not part covers the path for good. -/
theorem covered_assignAll {bindings : List (String × Value)} {path : List String}
    (hne : ∀ b ∈ bindings, segments b.1 ≠ path) (hplain : ∀ b ∈ bindings, b.2.entries? = none)
    {v : Value} (h : v.Covered path ∨ ∃ b ∈ bindings, ¬ Parting (segments b.1) path) :
    (v.assignAll bindings).Covered path := by
  induction bindings generalizing v with
  | nil =>
    rcases h with h | ⟨b, hb, -⟩
    · exact h
    · cases hb
  | cons b rest ih =>
    obtain ⟨hb, hrest⟩ := List.forall_mem_cons.1 hne
    obtain ⟨hbplain, hrestplain⟩ := List.forall_mem_cons.1 hplain
    show ((insertPath b.1 b.2 v).assignAll rest).Covered path
    apply ih hrest hrestplain
    rcases h with h | ⟨c, hc, hnot⟩
    · exact .inl (h.insert hb hbplain)
    · rcases List.mem_cons.1 hc with rfl | hc
      · exact .inl (covered_insert hb hnot hbplain v)
      · exact .inr ⟨c, hc, hnot⟩

/-- What is bound at a path and is not a map stays there as long as all that is bound after it, at
    other paths, parts from the path. Otherwise it is gone for good. -/
theorem get?_assignAll_of_last {path : String} {new : Value} (hnew : new.entries? = none)
    {after : List (String × Value)} (hne : ∀ b ∈ after, b.1 ≠ path)
    (hplain : ∀ b ∈ after, b.2.entries? = none) (before : List (String × Value)) (v : Value) :
    let found := v.assignAll (before ++ (path, new) :: after)
    (found.get? (segments path) = some new ↔ ∀ b ∈ after, Parting (segments b.1) (segments path)) ∧
      (found.get? (segments path) = some new ∨ found.Covered (segments path)) := by
  intro found
  let written := insertPath path new (v.assignAll before)
  have hfound : found = written.assignAll after := by
    show (before ++ (path, new) :: after).foldl _ v = _
    rw [List.foldl_append, List.foldl_cons]
    rfl
  have hwritten : written.get? (segments path) = some new :=
    get?_insert_self (segments path) new (v.assignAll before)
  have hsegments : ∀ b ∈ after, segments b.1 ≠ segments path := by
    intro b hb heq
    exact hne b hb (segments_inj heq)
  by_cases hparting : ∀ b ∈ after, Parting (segments b.1) (segments path)
  · have hkept : found.get? (segments path) = some new := by
      rw [hfound, get?_assignAll_of_parting hparting, hwritten]
    exact ⟨⟨fun _ => hparting, fun _ => hkept⟩, .inl hkept⟩
  · have hsome : ∃ b ∈ after, ¬ Parting (segments b.1) (segments path) := by
      simpa using hparting
    have hcovered : found.Covered (segments path) := by
      rw [hfound]
      exact covered_assignAll hsegments hplain (.inr hsome)
    exact ⟨⟨fun hkept => absurd hkept (hcovered.ne hnew), fun hall => absurd hall hparting⟩,
      .inr hcovered⟩

end Value

namespace Assignment

theorem texts_eq_nil {key : String} {assignments : List Assignment}
    (h : ∀ a ∈ assignments, a.key ≠ key) : texts key assignments = [] := by
  rw [texts, List.map_eq_nil_iff, List.filter_eq_nil_iff]
  intro a ha
  simpa using h a ha

theorem assigned_of_texts_ne {key : String} {assignments : List Assignment}
    (h : ∀ text, texts key assignments ≠ [text]) :
    assigned key assignments = .list ((texts key assignments).map .string) := by
  rw [assigned]
  split
  · rename_i text heq
    exact absurd heq (h text)
  · rfl

/-- Behind a key that comes for the first time stand those that come for the first time after it. -/
theorem keys_append_cons {before : List Assignment} {first : Assignment}
    (h : ∀ a ∈ before, a.key ≠ first.key) (after : List Assignment) :
    ∃ later, keys (before ++ first :: after) = keys before ++ first.key :: later ∧
      ∀ key, key ∈ later ↔
        (∃ a ∈ after, a.key = key) ∧ (∀ a ∈ before, a.key ≠ key) ∧ key ≠ first.key := by
  let fresh := (after.map key).removeAll (before.map key)
  have hfirst : first.key ∉ before.map key := by
    intro hmem
    obtain ⟨a, ha, heq⟩ := List.mem_map.1 hmem
    exact h a ha heq
  have hfresh : (first.key :: after.map key).removeAll (before.map key) = first.key :: fresh := by
    rw [List.removeAll, List.filter_cons_of_pos (by simpa using hfirst)]
    rfl
  refine ⟨(fresh.filter fun k => !k == first.key).eraseDups, ?_, ?_⟩
  · rw [keys, List.map_append, List.map_cons, List.eraseDups_append, hfresh, List.eraseDups_cons]
    rfl
  · intro key
    have hmem : key ∈ fresh ↔ (∃ a ∈ after, a.key = key) ∧ ∀ a ∈ before, a.key ≠ key := by
      simp [fresh, List.removeAll]
    rw [List.mem_eraseDups, List.mem_filter, hmem, and_assoc]
    simp

end Assignment

namespace Data

open Assignment

/-- An assignment that is the first to its key stands for all of them. What is assigned to the key is
    found there, unless a key that comes for the first time later leads above that place or below it. -/
theorem get?_assign_of_first (data : Data) {before : List Assignment} {first : Assignment}
    (h : ∀ a ∈ before, a.key ≠ first.key) (after : List Assignment) :
    let all := before ++ first :: after
    let found := Value.map (data.assign all)
    let path := segments first.key
    (found.get? path = some (assigned first.key all) ↔
      ∀ a ∈ after, a.key ≠ first.key → (∀ b ∈ before, b.key ≠ a.key) →
        Parting (segments a.key) path) ∧
      (found.get? path = some (assigned first.key all) ∨ found.Covered path) := by
  intro all found path
  obtain ⟨later, hkeys, hlater⟩ := keys_append_cons h after
  -- each key is bound once, with all that was given for it
  let binding (key : String) : String × Value := (key, assigned key all)
  have hfound : found = (Value.map data).assignAll
      ((keys before).map binding ++ binding first.key :: later.map binding) := by
    show Value.map (data.assign all) = _
    rw [map_assign, hkeys, List.map_append, List.map_cons]
  have hne : ∀ b ∈ later.map binding, b.1 ≠ first.key := by
    intro b hb
    obtain ⟨key, hkey, rfl⟩ := List.mem_map.1 hb
    exact ((hlater key).1 hkey).2.2
  have hplain : ∀ b ∈ later.map binding, b.2.entries? = none := by
    intro b hb
    obtain ⟨key, -, rfl⟩ := List.mem_map.1 hb
    exact entries?_assigned key all
  have hparting : (∀ b ∈ later.map binding, Parting (segments b.1) path) ↔
      ∀ a ∈ after, a.key ≠ first.key → (∀ b ∈ before, b.key ≠ a.key) →
        Parting (segments a.key) path := by
    constructor
    · intro hall a ha hkey hbefore
      have hfresh : a.key ∈ later := (hlater a.key).2 ⟨⟨a, ha, rfl⟩, hbefore, hkey⟩
      exact hall (binding a.key) (List.mem_map_of_mem hfresh)
    · intro hall b hb
      obtain ⟨key, hkey, rfl⟩ := List.mem_map.1 hb
      obtain ⟨⟨a, ha, rfl⟩, hbefore, hne⟩ := (hlater key).1 hkey
      exact hall a ha hne hbefore
  rw [← hparting, hfound]
  exact Value.get?_assignAll_of_last (entries?_assigned first.key all) hne hplain _ (.map data)

/-- The last assignment takes effect if its key has not come before. One whose key came before stands
    with the first of that key, as a list of all that was given. It takes effect exactly if every key
    that comes for the first time in between parts from its own; otherwise what was given is gone. -/
theorem assign_last (data : Data) (given : List Assignment) (last : Assignment) :
    let all := given ++ [last]
    let found := Value.map (data.assign all)
    let path := segments last.key
    ((∀ a ∈ given, a.key ≠ last.key) → found.get? path = some (.string last.value)) ∧
      ∀ before first between, given = before ++ first :: between →
        (∀ a ∈ before, a.key ≠ last.key) → first.key = last.key →
          (found.get? path = some (.list ((texts last.key all).map .string)) ↔
            ∀ a ∈ between, a.key ≠ last.key → (∀ b ∈ before, b.key ≠ a.key) →
              Parting (segments a.key) path) ∧
          (found.get? path = some (.list ((texts last.key all).map .string)) ∨
            found.Covered path) := by
  intro all found path
  refine ⟨?_, ?_⟩
  · intro hfresh
    have htexts : texts last.key all = [last.value] := by
      rw [texts_append, texts_eq_nil hfresh]
      exact texts_cons_self last []
    have hassigned : assigned last.key all = .string last.value := by
      rw [assigned, htexts]
    have hfirst := (get?_assign_of_first data hfresh []).1
    rw [hassigned] at hfirst
    exact hfirst.2 (by simp)
  · rintro before first between rfl hbefore hkey
    have htexts : texts last.key all = first.value :: (texts last.key between ++ [last.value]) := by
      have hhead := texts_cons_self first between
      have htail := texts_cons_self last []
      rw [hkey] at hhead
      rw [texts_append, texts_append, texts_eq_nil hbefore, hhead, htail]
      rfl
    have hassigned : assigned first.key all = .list ((texts last.key all).map .string) := by
      rw [hkey]
      apply assigned_of_texts_ne
      simp [htexts]
    have hall : before ++ first :: (between ++ [last]) = all := by simp [all]
    have hfirst : ∀ a ∈ before, a.key ≠ first.key := by rwa [hkey]
    obtain ⟨hiff, hplace⟩ := get?_assign_of_first data hfirst (between ++ [last])
    rw [hall, hassigned, hkey] at hiff hplace
    refine ⟨hiff.trans ?_, hplace⟩
    -- the last assignment brings no key of its own
    simp only [List.forall_mem_append, List.forall_mem_singleton]
    exact and_iff_left fun hne => absurd rfl hne

/-- A key that is given again after a key below it is lost. Given again after one that parts from it,
    it is not. -/
theorem assign_last_interleaved :
    let lost : List Assignment := [⟨"a", "1"⟩, ⟨"a.b", "2"⟩, ⟨"a", "3"⟩]
    let kept : List Assignment := [⟨"a.b", "1"⟩, ⟨"a.c", "2"⟩, ⟨"a.b", "3"⟩]
    let data : Data := []
    (Value.map (data.assign lost)).get? ["a"] ≠ some (.list [.string "1", .string "3"]) ∧
      (Value.map (data.assign lost)).get? ["a"] = some (.map [("b", .string "2")]) ∧
      (Value.map (data.assign kept)).get? ["a", "b"] = some (.list [.string "1", .string "3"]) ∧
      (Value.map (data.assign [⟨"a.b", "1"⟩])).get? ["a", "b"] = some (.string "1") := by
  intro lost kept data
  obtain ⟨-, hlost⟩ := assign_last data [⟨"a", "1"⟩, ⟨"a.b", "2"⟩] ⟨"a", "3"⟩
  obtain ⟨-, hkept⟩ := assign_last data [⟨"a.b", "1"⟩, ⟨"a.c", "2"⟩] ⟨"a.b", "3"⟩
  obtain ⟨honce, -⟩ := assign_last data [] ⟨"a.b", "1"⟩
  obtain ⟨hlostIff, -⟩ := hlost [] ⟨"a", "1"⟩ [⟨"a.b", "2"⟩] rfl (by simp) rfl
  obtain ⟨hkeptIff, -⟩ := hkept [] ⟨"a.b", "1"⟩ [⟨"a.c", "2"⟩] rfl (by simp) rfl
  refine ⟨?_, rfl, hkeptIff.2 ?_, honce (by simp)⟩
  · intro hfound
    have hparting := hlostIff.1 hfound ⟨"a.b", "2"⟩ (by simp) (by decide) (by simp)
    exact absurd hparting (by decide)
  · intro a ha _ _
    obtain rfl := List.mem_singleton.1 ha
    decide

end Data
end Stencil
