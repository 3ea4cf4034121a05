import Mathlib.Tactic.SplitIfs
import Stencil.Store

namespace Stencil

theorem decodeText_toUTF8 (s : String) : decodeText s.toUTF8 = .ok s := by
  have hvalid : s.toUTF8.IsValidUTF8 := s.isValidUTF8
  have hdecode : String.fromUTF8? s.toUTF8 = some s := dif_pos hvalid
  rw [decodeText, hdecode]

namespace Store

theorem find?_put (place : List String) (content : ByteArray) (files : List File) :
    (put place content files).find? (·.place == place) = some ⟨place, content⟩ := by
  induction files with
  | nil => simp [put]
  | cons file rest ih =>
    by_cases h : file.place = place
    · simp [put, h]
    · simpa [put, h] using ih

theorem find?_put_of_ne {place other : List String} (h : other ≠ place) (content : ByteArray)
    (files : List File) :
    (put place content files).find? (·.place == other) = files.find? (·.place == other) := by
  induction files with
  | nil => simp [put, Ne.symm h]
  | cons file rest ih =>
    by_cases hfile : file.place = place
    · simp [put, hfile, Ne.symm h]
    · rw [put, if_neg hfile, List.find?_cons, List.find?_cons, ih]

/-- Putting a file adds its place to those that there are. -/
theorem any_put (p : List String → Bool) (place : List String) (content : ByteArray)
    (files : List File) :
    (put place content files).any (fun file => p file.place) =
      (p place || files.any fun file => p file.place) := by
  induction files with
  | nil => simp [put]
  | cons file rest ih =>
    by_cases h : file.place = place
    · rw [put, if_pos h, List.any_cons, List.any_cons, h, ← Bool.or_assoc, Bool.or_self]
    · rw [put, if_neg h, List.any_cons, List.any_cons, ih, Bool.or_left_comm]

theorem entry_put (s : Store) (place : List String) (content : ByteArray) :
    entry ⟨put place content s.files⟩ place = .file content := by
  rw [entry, find?_put]

theorem any_prefix_of_directory {s : Store} {place above : List String}
    (hplace : s.entry place = .directory) (h : above <+: place) :
    (above.isEmpty || s.files.any fun file => above.isPrefixOf file.place) = true := by
  rw [entry] at hplace
  split at hplace
  · cases hplace
  · split at hplace
    · rename_i hbelow
      rcases Bool.or_eq_true_iff.1 hbelow with hempty | hbelow
      · have hnil : above = [] := by simpa [List.isEmpty_iff.1 hempty] using h
        simp [hnil]
      · obtain ⟨file, hfile, hprefix⟩ := List.any_eq_true.1 hbelow
        have habove : above <+: file.place := h.trans (List.isPrefixOf_iff_prefix.1 hprefix)
        rw [Bool.or_eq_true]
        exact .inr (List.any_eq_true.2 ⟨file, hfile, List.isPrefixOf_iff_prefix.2 habove⟩)
    · cases hplace

/-- A file put into a directory leaves all else as it was: no directory comes to be. -/
theorem entry_put_of_ne {s : Store} {parent other : List String} {name : String}
    (hparent : s.entry parent = .directory) (h : other ≠ parent ++ [name]) (content : ByteArray) :
    entry ⟨put (parent ++ [name]) content s.files⟩ other = s.entry other := by
  rw [entry, entry, find?_put_of_ne h, any_put]
  have hbelow : (other.isEmpty || (other.isPrefixOf (parent ++ [name]) ||
        s.files.any fun file => other.isPrefixOf file.place)) =
      (other.isEmpty || s.files.any fun file => other.isPrefixOf file.place) := by
    -- what is above the new file is above its directory, so it was one before
    by_cases hprefix : other <+: parent ++ [name]
    · have habove : other <+: parent := (List.prefix_concat_iff.1 hprefix).resolve_left h
      have hany := any_prefix_of_directory hparent habove
      have hor := Bool.or_eq_true_iff.1 hany
      rw [hany, Bool.or_left_comm, hany, Bool.or_true]
    · have hfalse : other.isPrefixOf (parent ++ [name]) = false := by
        rw [Bool.eq_false_iff]
        exact mt List.isPrefixOf_iff_prefix.1 hprefix
      rw [hfalse, Bool.false_or]
  rw [hbelow]

theorem walk_nil (s : Store) (place : Option (List String)) : s.walk place [] = .ok place := by
  rw [walk]

theorem walk_append (s : Store) (place : Option (List String)) (xs ys : List String) :
    s.walk place (xs ++ ys) = (s.walk place xs).bind fun place => s.walk place ys := by
  induction xs generalizing place with
  | nil => rw [List.nil_append, walk_nil, Except.bind]
  | cons name rest ih =>
    rw [List.cons_append]
    cases place with
    | none =>
      simp only [walk]
      split
      · exact ih none
      · rfl
    | some place =>
      simp only [walk]
      cases s.entry place with
      | file content => rfl
      | missing => rfl
      | directory => split_ifs <;> exact ih _

/-- A way leads through directories only, so it stays open where these stay. -/
theorem walk_of_directories {s t : Store}
    (h : ∀ place, s.entry place = .directory → t.entry place = .directory) {names : List String}
    {start place : Option (List String)} (hwalk : s.walk start names = .ok place) :
    t.walk start names = .ok place := by
  induction names generalizing start with
  | nil => rwa [walk_nil] at hwalk ⊢
  | cons name rest ih =>
    cases start with
    | none =>
      simp only [walk] at hwalk ⊢
      split_ifs at hwalk ⊢
      exact ih hwalk
    | some start =>
      simp only [walk] at hwalk ⊢
      cases hentry : s.entry start with
      | file content => simp [hentry] at hwalk
      | missing => simp [hentry] at hwalk
      | directory =>
        simp only [hentry] at hwalk
        simp only [h start hentry]
        split_ifs at hwalk ⊢ <;> exact ih hwalk

/-- `t` is `s` but for the file that a path leads to, which holds a text. -/
structure Rewritten (s t : Store) (path text : String) (place : List String) : Prop where
  leads : t.walk (origin path) (pathNames path) = .ok (some place)
  holds : t.read path = .ok text.toUTF8
  others : ∀ other, other ≠ place → t.entry other = s.entry other

theorem pathNames_ne_nil (path : String) : pathNames path ≠ [] := by
  intro h
  exact Text.split_ne_nil '/' path.toList (List.map_eq_nil_iff.1 h)

/-- Where a path that can be written leads: a directory, and a name in it that is not that of
    another one. -/
structure Target (s : Store) (path : String) (parents : List String) (name : String)
    (parent : List String) : Prop where
  nonempty : path.isEmpty = false
  names : pathNames path = parents ++ [name]
  leads : s.walk (origin path) parents = .ok (some parent)
  directory : s.entry parent = .directory
  proper : name ≠ "" ∧ name ≠ "." ∧ name ≠ ".."
  free : s.entry (parent ++ [name]) ≠ .directory

theorem exists_target_of_write {s t : Store} {path text : String} (h : s.write path text = .ok t) :
    ∃ parents name parent, Target s path parents name parent ∧
      t = ⟨put (parent ++ [name]) text.toUTF8 s.files⟩ := by
  have hnames : pathNames path =
      (pathNames path).dropLast ++ [(pathNames path).getLast?.getD ""] := by
    rw [List.getLast?_eq_some_getLast (pathNames_ne_nil path), Option.getD_some,
      List.dropLast_concat_getLast]
  simp only [write] at h
  generalize (pathNames path).getLast?.getD "" = name at h hnames
  split at h
  · cases h
  rename_i hpath
  split at h
  · cases h
  rename_i place hwalk
  split at h
  · cases h
  rename_i parent
  split at h
  · cases h
  · cases h
  rename_i hparent
  split at h
  · cases h
  rename_i hname
  split at h
  · cases h
  rename_i hentry
  cases h
  simp only [Bool.or_eq_true, beq_iff_eq, not_or] at hname
  obtain ⟨⟨hempty, hdot⟩, hdots⟩ := hname
  exact ⟨_, name, parent, ⟨by simpa using hpath, hnames, hwalk, hparent, ⟨hempty, hdot, hdots⟩, hentry⟩,
    rfl⟩

theorem exists_rewritten {s t : Store} {path text : String} (h : s.write path text = .ok t) :
    ∃ place, Rewritten s t path text place := by
  obtain ⟨parents, name, parent, target, rfl⟩ := exists_target_of_write h
  have hothers : ∀ other, other ≠ parent ++ [name] →
      entry ⟨put (parent ++ [name]) text.toUTF8 s.files⟩ other = s.entry other :=
    fun other hother => entry_put_of_ne target.directory hother _
  have hdirectories : ∀ place, s.entry place = .directory →
      entry ⟨put (parent ++ [name]) text.toUTF8 s.files⟩ place = .directory := by
    intro place hplace
    rw [hothers place fun heq => target.free (heq ▸ hplace), hplace]
  have hleads : walk ⟨put (parent ++ [name]) text.toUTF8 s.files⟩ (origin path) (pathNames path) =
      .ok (some (parent ++ [name])) := by
    rw [target.names, walk_append, walk_of_directories hdirectories target.leads]
    simp only [Except.bind, walk, hdirectories parent target.directory, target.proper, or_self, if_false]
  refine ⟨parent ++ [name], hleads, ?_, hothers⟩
  simp only [read, target.nonempty, Bool.false_eq_true, if_false, hleads, entry_put]

end Store
end Stencil
