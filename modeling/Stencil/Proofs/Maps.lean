import Stencil.Value.Basic

namespace Stencil.Map

variable {α β : Type}

theorem lt_or_lt_of_ne {k l : String} (h : k ≠ l) : k < l ∨ l < k := by
  by_cases hlt : k < l
  · exact .inl hlt
  · apply Or.inr
    rw [← String.not_le]
    intro hle
    exact h (String.le_antisymm hle (String.not_lt.1 hlt))

theorem mem_alter {k : String} {f : Option α → α} {m : Map α} {e : String × α}
    (h : e ∈ alter k f m) : e ∈ m ∨ ∃ old, e = (k, f old) := by
  induction m with
  | nil => exact .inr ⟨none, List.mem_singleton.1 h⟩
  | cons entry rest ih =>
    obtain ⟨key, value⟩ := entry
    rw [alter] at h
    split at h
    · rename_i hk
      rcases List.mem_cons.1 h with rfl | h
      · exact .inr ⟨some value, by rw [hk]⟩
      · exact .inl (List.mem_cons_of_mem _ h)
    · split at h
      · rcases List.mem_cons.1 h with rfl | h
        · exact .inr ⟨none, rfl⟩
        · exact .inl h
      · rcases List.mem_cons.1 h with rfl | h
        · exact .inl List.mem_cons_self
        · exact (ih h).imp_left (List.mem_cons_of_mem _)

theorem mem_insert {k : String} {value : α} {m : Map α} {e : String × α}
    (h : e ∈ insert k value m) : e ∈ m ∨ e = (k, value) :=
  (mem_alter h).imp_right fun ⟨_, heq⟩ => heq

theorem ordered_alter {m : Map α} (h : Ordered m) (k : String) (f : Option α → α) :
    Ordered (alter k f m) := by
  induction m with
  | nil => exact List.pairwise_singleton _ _
  | cons entry rest ih =>
    obtain ⟨key, value⟩ := entry
    obtain ⟨hhead, hrest⟩ := List.pairwise_cons.1 h
    rw [alter]
    split
    · exact List.pairwise_cons.2 ⟨hhead, hrest⟩
    · rename_i hne
      split
      · rename_i hlt
        refine List.pairwise_cons.2 ⟨?_, h⟩
        intro e he
        rcases List.mem_cons.1 he with rfl | he
        · exact hlt
        · exact String.lt_trans hlt (hhead e he)
      · rename_i hge
        have hkey : key < k := (lt_or_lt_of_ne hne).resolve_left hge
        refine List.pairwise_cons.2 ⟨?_, ih hrest⟩
        intro e he
        rcases mem_alter he with he | ⟨old, rfl⟩
        · exact hhead e he
        · exact hkey

theorem ordered_insert {m : Map α} (h : Ordered m) (k : String) (value : α) :
    Ordered (insert k value m) :=
  ordered_alter h k _

theorem ofList_eq_foldl (entries : List (String × α)) :
    ofList entries = entries.foldl (fun m e => insert e.1 e.2 m) [] := rfl

/-- What inserting one entry keeps, a map has that is put together of such entries. -/
theorem ofList_induction {P : Map α → Prop} {entries : List (String × α)} (hnil : P [])
    (hinsert : ∀ m, P m → ∀ e ∈ entries, P (insert e.1 e.2 m)) : P (ofList entries) := by
  have run : ∀ rest ⊆ entries, ∀ m, P m → P (rest.foldl (fun m e => insert e.1 e.2 m) m) := by
    intro rest
    induction rest with
    | nil => exact fun _ m hm => hm
    | cons e rest ih =>
      intro hsub m hm
      have he : e ∈ entries := hsub List.mem_cons_self
      exact ih (fun x hx => hsub (List.mem_cons_of_mem _ hx)) _ (hinsert m hm e he)
  rw [ofList_eq_foldl]
  exact run entries (fun _ h => h) [] hnil

theorem ordered_ofList (entries : List (String × α)) : Ordered (ofList entries) :=
  ofList_induction List.Pairwise.nil fun _ hm e _ => ordered_insert hm e.1 e.2

theorem ofList_subset (entries : List (String × α)) : ofList entries ⊆ entries := by
  refine ofList_induction (P := (· ⊆ entries)) (List.nil_subset _) ?_
  intro m hm e he x hx
  rcases mem_insert hx with hx | rfl
  · exact hm hx
  · exact he

theorem insert_of_lt {k : String} {m : Map α} (h : ∀ e ∈ m, e.1 < k) (value : α) :
    insert k value m = m ++ [(k, value)] := by
  induction m with
  | nil => rfl
  | cons e rest ih =>
    obtain ⟨key, old⟩ := e
    have hkey : key < k := h _ List.mem_cons_self
    have hne : k ≠ key := (String.ne_of_lt hkey).symm
    have hlt : ¬ k < key := String.lt_asymm hkey
    have hrest := ih fun e he => h e (List.mem_cons_of_mem _ he)
    rw [insert] at hrest
    rw [insert, alter, if_neg hne, if_neg hlt, hrest, List.cons_append]

/-- Entries that are in order already are put in as they come. -/
theorem ofList_of_ordered {m : Map α} (h : Ordered m) : ofList m = m := by
  have run : ∀ done rest : Map α, Ordered (done ++ rest) →
      rest.foldl (fun m e => insert e.1 e.2 m) done = done ++ rest := by
    intro done rest
    induction rest generalizing done with
    | nil => simp
    | cons e rest ih =>
      intro hordered
      have hlast : ∀ d ∈ done, d.1 < e.1 := fun d hd =>
        (List.pairwise_append.1 hordered).2.2 d hd e List.mem_cons_self
      have happend : done ++ e :: rest = done ++ [e] ++ rest := by simp
      rw [happend] at hordered ⊢
      rw [← ih _ hordered, ← insert_of_lt hlast]
      rfl
  rw [ofList_eq_foldl]
  exact run [] m h

/-- A map with all values changed, each at its key. -/
def mapValues (g : α → β) (m : Map α) : Map β := m.map fun (key, value) => (key, g value)

theorem get?_mapValues (g : α → β) (k : String) (m : Map α) :
    get? k (mapValues g m) = (get? k m).map g := by
  induction m with
  | nil => rfl
  | cons e rest ih =>
    obtain ⟨key, value⟩ := e
    by_cases hk : k = key
    · simp [mapValues, get?, hk]
    by_cases hl : k < key
    · simp [mapValues, get?, hk, hl]
    · simpa [mapValues, get?, hk, hl] using ih

theorem mapValues_alter {g : α → β} {f : Option α → α} {h : Option β → β}
    (hfh : ∀ old, g (f old) = h (old.map g)) (k : String) (m : Map α) :
    mapValues g (alter k f m) = alter k h (mapValues g m) := by
  induction m with
  | nil => simp [mapValues, alter, hfh]
  | cons e rest ih =>
    obtain ⟨key, value⟩ := e
    by_cases hk : k = key
    · simp [mapValues, alter, hk, hfh]
    by_cases hl : k < key
    · simp [mapValues, alter, hk, hl, hfh]
    · simpa [mapValues, alter, hk, hl] using ih

theorem ordered_mapValues {g : α → β} {m : Map α} (h : Ordered m) : Ordered (mapValues g m) :=
  List.pairwise_map.2 h

theorem mem_of_get? {k : String} {m : Map α} {value : α} (h : get? k m = some value) :
    (k, value) ∈ m := by
  induction m with
  | nil => cases h
  | cons e rest ih =>
    obtain ⟨key, old⟩ := e
    rw [get?] at h
    split at h
    · rename_i hk
      cases h
      rw [hk]
      exact List.mem_cons_self
    · split at h
      · cases h
      · exact List.mem_cons_of_mem _ (ih h)

theorem get?_eq_none_of_lt {k : String} {m : Map α} (h : ∀ e ∈ m, k < e.1) : get? k m = none := by
  cases m with
  | nil => rfl
  | cons e rest =>
    obtain ⟨key, value⟩ := e
    have hlt : k < key := h _ List.mem_cons_self
    rw [get?, if_neg (String.ne_of_lt hlt), if_pos hlt]

/-- In a map that is in order, looking no further than a larger key loses nothing. -/
theorem get?_cons_of_ordered {key : String} {value : α} {rest : Map α}
    (h : Ordered ((key, value) :: rest)) (k : String) :
    get? k ((key, value) :: rest) = if k = key then some value else get? k rest := by
  have habove : ∀ e ∈ rest, key < e.1 := (List.pairwise_cons.1 h).1
  rw [get?]
  by_cases hlt : k < key
  · have hnone : get? k rest = none :=
      get?_eq_none_of_lt fun e he => String.lt_trans hlt (habove e he)
    rw [if_pos hlt, hnone]
  · rw [if_neg hlt]

theorem get?_of_mem {m : Map α} (h : Ordered m) {k : String} {value : α} (hmem : (k, value) ∈ m) :
    get? k m = some value := by
  induction m with
  | nil => cases hmem
  | cons e rest ih =>
    obtain ⟨key, old⟩ := e
    obtain ⟨habove, hrest⟩ := List.pairwise_cons.1 h
    rw [get?_cons_of_ordered h]
    rcases List.mem_cons.1 hmem with heq | hmem
    · cases heq
      exact if_pos rfl
    · have hne : k ≠ key := (String.ne_of_lt (habove _ hmem)).symm
      rw [if_neg hne]
      exact ih hrest hmem

theorem nodup_of_ordered {m : Map α} (h : Ordered m) : m.Nodup := by
  apply h.imp
  rintro a b hlt rfl
  exact String.lt_irrefl a.1 hlt

/-- A map in order is known by what is found in it. -/
theorem eq_of_get?_eq {m n : Map α} (hm : Ordered m) (hn : Ordered n)
    (h : ∀ k, get? k m = get? k n) : m = n := by
  have hmem : ∀ e, e ∈ m ↔ e ∈ n := by
    rintro ⟨k, value⟩
    constructor
    · intro he
      apply mem_of_get?
      rw [← h, get?_of_mem hm he]
    · intro he
      apply mem_of_get?
      rw [h, get?_of_mem hn he]
  have hperm : m.Perm n :=
    (List.perm_ext_iff_of_nodup (nodup_of_ordered hm) (nodup_of_ordered hn)).2 hmem
  apply List.Perm.eq_of_pairwise _ hm hn hperm
  intro a b _ _ hab hba
  exact absurd (String.lt_trans hab hba) (String.lt_irrefl a.1)

theorem get?_alter_self (k : String) (f : Option α → α) (m : Map α) :
    get? k (alter k f m) = some (f (get? k m)) := by
  induction m with
  | nil => simp [alter, get?]
  | cons e rest ih =>
    obtain ⟨key, value⟩ := e
    by_cases hk : k = key
    · subst hk
      simp [alter, get?]
    by_cases hl : k < key
    · simp [alter, get?, hk, hl]
    · simpa [alter, get?, hk, hl] using ih

/-- Other entries stay. A key that is passed over on the way to `k` cannot be the one looked for
    beyond it. -/
theorem get?_alter_of_ne {k l : String} (h : l ≠ k) (f : Option α → α) (m : Map α) :
    get? l (alter k f m) = get? l m := by
  induction m with
  | nil => simp [alter, get?, h]
  | cons e rest ih =>
    obtain ⟨key, value⟩ := e
    by_cases hk : k = key
    · subst hk
      simp [alter, get?, h]
    by_cases hl : k < key
    · have below : l < k → l ≠ key ∧ l < key := by
        intro hlk
        have hlt : l < key := String.lt_trans hlk hl
        exact ⟨fun he => String.lt_irrefl key (he ▸ hlt), hlt⟩
      by_cases hlk : l < k
      · simp [alter, get?, hk, hl, h, hlk, below hlk]
      · simp [alter, get?, hk, hl, h, hlk]
    · simp [alter, get?, hk, hl, ih]

/-- Of entries with equal keys the last one is found. -/
theorem get?_ofList (k : String) (entries : List (String × α)) :
    get? k (ofList entries) = entries.reverse.lookup k := by
  have run : ∀ m : Map α, get? k (entries.foldl (fun m e => insert e.1 e.2 m) m) =
      (entries.reverse.lookup k).or (get? k m) := by
    induction entries with
    | nil => simp
    | cons e rest ih =>
      obtain ⟨key, value⟩ := e
      intro m
      have hlast : get? k (insert key value m) = (List.lookup k [(key, value)]).or (get? k m) := by
        by_cases hk : k = key
        · subst hk
          simp [insert, get?_alter_self]
        · simp [insert, get?_alter_of_ne hk, List.lookup_cons, beq_eq_false_iff_ne.2 hk]
      rw [List.foldl_cons, ih, hlast, List.reverse_cons, List.lookup_append, Option.or_assoc]
  rw [ofList_eq_foldl, run]
  exact Option.or_none

theorem mapValues_ofList (g : α → β) (entries : List (String × α)) :
    mapValues g (ofList entries) = ofList (mapValues g entries) := by
  have run : ∀ m : Map α, mapValues g (entries.foldl (fun m e => insert e.1 e.2 m) m) =
      (mapValues g entries).foldl (fun m e => insert e.1 e.2 m) (mapValues g m) := by
    induction entries with
    | nil => exact fun _ => rfl
    | cons e rest ih =>
      obtain ⟨key, value⟩ := e
      intro m
      have hinsert : mapValues g (insert key value m) = insert key (g value) (mapValues g m) :=
        mapValues_alter (h := fun _ => g value) (fun _ => rfl) key m
      rw [List.foldl_cons, ih, hinsert]
      rfl
  rw [ofList_eq_foldl, run, ofList_eq_foldl]
  rfl

/-- Altering an entry puts in one value, that which is made of the entry found. -/
theorem alter_eq_insert (k : String) (f : Option α → α) (m : Map α) :
    alter k f m = insert k (f (get? k m)) m := by
  induction m with
  | nil => rfl
  | cons e rest ih =>
    obtain ⟨key, value⟩ := e
    rw [insert] at ih ⊢
    by_cases hk : k = key
    · simp [alter, get?, hk]
    by_cases hl : k < key
    · simp [alter, get?, hk, hl]
    · simpa [alter, get?, hk, hl] using ih

theorem alter_alter_self (k : String) (f g : Option α → α) (m : Map α) :
    alter k f (alter k g m) = alter k (fun old => f (some (g old))) m := by
  induction m with
  | nil => simp [alter]
  | cons e rest ih =>
    obtain ⟨key, value⟩ := e
    by_cases hk : k = key
    · simp [alter, hk]
    by_cases hl : k < key
    · simp [alter, hk, hl]
    · simpa [alter, hk, hl] using ih

theorem alter_comm_of_lt {k l : String} (h : k < l) (f g : Option α → α) (m : Map α) :
    alter k f (alter l g m) = alter l g (alter k f m) := by
  have hkl : k ≠ l := String.ne_of_lt h
  have hnot : ¬ l < k := String.lt_asymm h
  induction m with
  | nil => simp [alter, h, hkl, hkl.symm, hnot]
  | cons e rest ih =>
    obtain ⟨key, value⟩ := e
    by_cases hk : k = key
    · subst hk
      simp [alter, hkl.symm, hnot]
    by_cases hlt : k < key
    · -- the entry of `k` goes in front, whatever becomes of what is behind it
      by_cases hl : l = key
      · subst hl
        simp [alter, hkl, hkl.symm, h, hnot]
      by_cases hlkey : l < key
      · simp [alter, hk, hlt, hl, hlkey, hkl, hkl.symm, h, hnot]
      · simp [alter, hk, hlt, hl, hlkey, hkl.symm, hnot]
    · have hkey : key < k := (lt_or_lt_of_ne hk).resolve_left hlt
      have hbeyond : key < l := String.lt_trans hkey h
      have hl : l ≠ key := (String.ne_of_lt hbeyond).symm
      have hlkey : ¬ l < key := String.lt_asymm hbeyond
      simpa [alter, hk, hlt, hl, hlkey] using ih

/-- Entries at different keys are altered in any order. -/
theorem alter_comm {k l : String} (h : k ≠ l) (f g : Option α → α) (m : Map α) :
    alter k f (alter l g m) = alter l g (alter k f m) := by
  rcases lt_or_lt_of_ne h with hlt | hlt
  · exact alter_comm_of_lt hlt f g m
  · exact (alter_comm_of_lt hlt g f m).symm

end Stencil.Map

namespace Stencil.Value

theorem itemsOrdered_iff {items : List Value} : ItemsOrdered items ↔ ∀ v ∈ items, v.Ordered := by
  induction items with
  | nil => simp [ItemsOrdered]
  | cons v rest ih => simp [ItemsOrdered, ih]

theorem entriesOrdered_iff {entries : List (String × Value)} :
    EntriesOrdered entries ↔ ∀ e ∈ entries, e.2.Ordered := by
  induction entries with
  | nil => simp [EntriesOrdered]
  | cons e rest ih =>
    obtain ⟨key, v⟩ := e
    simp [EntriesOrdered, ih]

theorem ordered_singleton (key : String) {v : Value} (h : v.Ordered) : (map [(key, v)]).Ordered :=
  ⟨List.pairwise_singleton _ _, h, trivial⟩

end Stencil.Value
