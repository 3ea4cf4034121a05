import Stencil.Proofs.Cursor

namespace Stencil

/-- Nothing, or nothing but comments. A dash for a sigil leaves no room for these: the dash after it
    is always an escape. -/
def OnlyComments (sigil : Char) (text : List Char) : Prop :=
  text = [] ∨ sigil ≠ '-' ∧ CommentsToEnd sigil text

namespace TokenStream

/-- What is left of a stream after some calls. -/
def later (t : TokenStream) : Nat → TokenStream
  | 0 => t
  | n + 1 => t.next.2.later n

/-- What the calls give, one after another. -/
def answer (t : TokenStream) (n : Nat) : Option Item := (t.later n).next.1

/-- A call ends the stream with nothing or with an error. -/
def Stopped (t : TokenStream) : Prop := t.next.1 = none ∨ ∃ e, t.next.1 = some (.error e)

/-- What one call of a stream over a source does. -/
structure Progress (source : String) (t : TokenStream) : Prop where
  placed : ∃ before, Text.splitBytes? t.offset source.toList = some (before, t.rest)
  advances : ∀ item, t.next.1 = some item → t.offset < t.next.2.offset ∧
    t.next.2.offset ≤ source.utf8ByteSize ∧
    ∃ before, Text.splitBytes? t.next.2.offset source.toList = some (before, t.next.2.rest)
  ends : t.next.1 = none ↔ OnlyComments t.sigil t.rest
  stops : t.Stopped → ∀ n, t.next.2.answer n = none
  cuts : Cursor.next? ⟨t.sigil, source.toList, t.offset⟩ =
    some (t.next.1, ⟨t.sigil, source.toList, t.next.2.offset⟩)

section Ends

variable {sigil : Char}

theorem run_of_comments (hs : sigil ≠ '-') {text : List Char} (h : Comments sigil text) :
    PlainRun sigil text [] := by
  obtain ⟨lines, hlines, rfl⟩ := h
  induction lines with
  | nil => exact .nil
  | cons line lines ih =>
    obtain ⟨hline, hrest⟩ := List.forall_mem_cons.1 hlines
    have hrun := (ih hrest).comment hs hline
    simpa using hrun

theorem ne_dash_of_run {text : List Char} (h : PlainRun sigil text []) (hne : text ≠ []) :
    sigil ≠ '-' := by
  cases h with
  | nil => exact absurd rfl hne
  | comment hs => exact hs

theorem onlyComments_iff {text : List Char} :
    OnlyComments sigil text ↔ plainText sigil text = ([], []) := by
  constructor
  · rintro (rfl | ⟨hs, hclosed | ⟨closed, line, hclosed, hline, rfl⟩⟩)
    · exact plainText_of_not_mem (by simp)
    · have hend : PlainEnd sigil [] := .done
      have hrun := (run_of_comments hs hclosed).plainText_eq hend.plainText_eq
      rwa [List.append_nil] at hrun
    · have hend : PlainEnd sigil (commentText sigil line) := .comment hs hline
      exact (run_of_comments hs hclosed).plainText_eq hend.plainText_eq
  · intro h
    obtain ⟨run, found, rest, rfl, hrun, hend | ⟨after, rfl, hread⟩⟩ := exists_plainRun sigil text
    · rw [hrun.plainText_eq hend.plainText_eq, Prod.mk.injEq] at h
      obtain ⟨rfl, -⟩ := h
      by_cases hne : run ++ rest = []
      · exact .inl hne
      · refine .inr ⟨?_, commentsToEnd_of_run hrun hend⟩
        cases hend with
        | done => exact ne_dash_of_run hrun (by simpa using hne)
        | comment hs => exact hs
    · rw [hrun.plainText_eq (plainText_of_directive hread)] at h
      cases h

end Ends

theorem rest_of_unclosed {t : TokenStream} {after : List Char} {e : Spanned LexicalError}
    (h : (t.directive after).1 = .error e) : (t.directive after).2.rest = [] := by
  unfold directive at h ⊢
  simp only at h ⊢
  split at h
  · rfl
  · cases h

/-- A call gives nothing where no plain text and no directive is left; an error leaves nothing. -/
theorem next_cases (t : TokenStream) :
    plainText t.sigil t.rest = ([], []) ∧ t.next.1 = none ∧ t.next.2.rest = [] ∨
      plainText t.sigil t.rest ≠ ([], []) ∧
        ∃ item, t.next.1 = some item ∧ ∀ e, item = .error e → t.next.2.rest = [] := by
  rcases hscan : plainText t.sigil t.rest with ⟨text, left⟩
  by_cases hne : text = []
  · subst hne
    cases left with
    | nil =>
      rw [next_of_end hscan]
      exact .inl ⟨rfl, rfl, rfl⟩
    | cons c after =>
      rw [next_of_directive hscan]
      exact .inr ⟨by simp, _, rfl, fun _ => rest_of_unclosed⟩
  · rw [next_of_text hscan hne]
    exact .inr ⟨by simp [hne], _, rfl, fun _ he => nomatch he⟩

theorem next_eq_none_iff {t : TokenStream} : t.next.1 = none ↔ plainText t.sigil t.rest = ([], []) := by
  rcases t.next_cases with ⟨hscan, hnone, -⟩ | ⟨hscan, item, hsome, -⟩
  · exact iff_of_true hnone hscan
  · exact iff_of_false (by simp [hsome]) hscan

theorem rest_of_stopped {t : TokenStream} (h : t.Stopped) : t.next.2.rest = [] := by
  rcases t.next_cases with ⟨-, -, hrest⟩ | ⟨-, item, hsome, herror⟩
  · exact hrest
  · rcases h with hnone | ⟨e, he⟩
    · rw [hnone] at hsome
      cases hsome
    · exact herror e (Option.some.inj (hsome.symm.trans he))

theorem next_of_rest_nil {t : TokenStream} (h : t.rest = []) : t.next.1 = none ∧ t.next.2.rest = [] := by
  have hplain : plainText t.sigil t.rest = ([], []) := by
    rw [h]
    exact plainText_of_not_mem (by simp)
  have hnone := next_eq_none_iff.2 hplain
  exact ⟨hnone, rest_of_stopped (.inl hnone)⟩

theorem answer_of_rest_nil {t : TokenStream} (h : t.rest = []) (n : Nat) : t.answer n = none := by
  induction n generalizing t with
  | zero => exact (next_of_rest_nil h).1
  | succ n ih => exact ih (next_of_rest_nil h).2

theorem items_of_none {t : TokenStream} (h : t.next.1 = none) : t.items = [] := by
  rw [items]
  split
  · rfl
  · rename_i hnext
    rw [hnext] at h
    cases h

/-- The items are what the calls give, up to the first that gives nothing. -/
theorem answer_eq_getElem? (t : TokenStream) (n : Nat) : t.answer n = t.items[n]? := by
  induction n generalizing t with
  | zero =>
    cases hnext : t.next.1 with
    | none =>
      rw [items_of_none hnext]
      exact hnext
    | some item =>
      rw [items_of_next (Prod.ext hnext rfl)]
      exact hnext
  | succ n ih =>
    cases hnext : t.next.1 with
    | none =>
      rw [items_of_none hnext]
      exact answer_of_rest_nil (rest_of_stopped (.inl hnext)) n
    | some item =>
      rw [items_of_next (Prod.ext hnext rfl), List.getElem?_cons_succ]
      exact ih t.next.2

theorem length_items_le (t : TokenStream) : t.items.length ≤ t.rest.length := by
  fun_induction items t with
  | case1 t u h => simp
  | case2 t item u h ih =>
    have hshorter := length_next h
    simp only [List.length_cons]
    omega

/-- A stream stands between characters of its source, with all that is left behind it. -/
def Placed (sigil : Char) (source : List Char) (t : TokenStream) : Prop :=
  ∃ before, source = before ++ t.rest ∧ t = ⟨sigil, Text.bytes before, t.rest⟩

section Placed

variable {sigil : Char} {source : List Char} {t : TokenStream}

theorem placed_start (sigil : Char) (source : String) :
    Placed sigil source.toList (start sigil source) :=
  ⟨[], rfl, rfl⟩

/-- A call takes a piece of what is left, and makes its cuts at both ends of this piece. -/
theorem Placed.step (h : Placed sigil source t) :
    ∃ before taken, source = before ++ taken ++ t.next.2.rest ∧ t.rest = taken ++ t.next.2.rest ∧
      t.offset = Text.bytes before ∧
      t.next.2 = ⟨sigil, Text.bytes (before ++ taken), t.next.2.rest⟩ ∧
      Cursor.next? ⟨sigil, source, t.offset⟩ = some (t.next.1, ⟨sigil, source, t.next.2.offset⟩) := by
  obtain ⟨before, hsource, ht⟩ := h
  obtain ⟨taken, hrest, hnext, hcursor⟩ := Cursor.next?_eq sigil before t.rest
  rw [← ht] at hrest hnext hcursor
  have hoffset : t.offset = Text.bytes before := congrArg TokenStream.offset ht
  have hlater : t.next.2.offset = Text.bytes (before ++ taken) := congrArg TokenStream.offset hnext
  refine ⟨before, taken, ?_, hrest, hoffset, hnext, ?_⟩
  · rw [hsource, List.append_assoc, ← hrest]
  · rw [hsource, hoffset, hlater]
    exact hcursor

theorem Placed.next (h : Placed sigil source t) : Placed sigil source t.next.2 := by
  obtain ⟨before, taken, hsource, -, -, hnext, -⟩ := h.step
  exact ⟨before ++ taken, hsource, hnext⟩

theorem Placed.later (h : Placed sigil source t) (n : Nat) : Placed sigil source (t.later n) := by
  induction n generalizing t with
  | zero => exact h
  | succ n ih => exact ih h.next

theorem Placed.sigil_eq (h : Placed sigil source t) : t.sigil = sigil := by
  obtain ⟨before, -, ht⟩ := h
  exact congrArg TokenStream.sigil ht

theorem Placed.split (h : Placed sigil source t) :
    ∃ before, Text.splitBytes? t.offset source = some (before, t.rest) := by
  obtain ⟨before, hsource, ht⟩ := h
  refine ⟨before, ?_⟩
  rw [congrArg TokenStream.offset ht, hsource]
  exact Text.splitBytes?_append before t.rest

theorem Placed.offset_le (h : Placed sigil source t) : t.offset ≤ Text.bytes source := by
  obtain ⟨before, hsource, ht⟩ := h
  have hoffset : t.offset = Text.bytes before := congrArg TokenStream.offset ht
  rw [hsource, Text.bytes_append, hoffset]
  exact Nat.le_add_right _ _

theorem Placed.advances (h : Placed sigil source t) {item : Item} (hitem : t.next.1 = some item) :
    t.offset < t.next.2.offset := by
  obtain ⟨before, taken, -, hrest, hoffset, hnext, -⟩ := h.step
  have hshorter : t.next.2.rest.length < t.rest.length := length_next (Prod.ext hitem rfl)
  have htaken : taken ≠ [] := by
    rintro rfl
    rw [List.nil_append] at hrest
    exact Nat.lt_irrefl _ (hrest ▸ hshorter)
  have hpos := Text.bytes_pos htaken
  rw [hoffset, congrArg TokenStream.offset hnext, Text.bytes_append]
  exact Nat.lt_add_of_pos_right hpos

theorem Placed.progress {source : String} (h : Placed sigil source.toList t) : Progress source t := by
  refine ⟨h.split, ?_, ?_, ?_, ?_⟩
  · intro item hitem
    have hle := h.next.offset_le
    rw [Text.bytes_toList] at hle
    exact ⟨h.advances hitem, hle, h.next.split⟩
  · rw [next_eq_none_iff, onlyComments_iff]
  · intro hstopped n
    exact answer_of_rest_nil (rest_of_stopped hstopped) n
  · obtain ⟨-, -, -, -, -, -, hcuts⟩ := h.step
    rw [h.sigil_eq]
    exact hcuts

end Placed

/-- Every call moves on or stops the stream for good, and none cuts the source off a boundary. -/
theorem calls_progress_and_stop (sigil : Char) (source : String) :
    (∀ n, Progress source ((start sigil source).later n)) ∧
    (∀ n, (start sigil source).answer n = (start sigil source).items[n]?) ∧
    (start sigil source).items.length ≤ source.length ∧
    ∀ before e after, (start sigil source).items = before ++ .error e :: after → after = [] := by
  have hplaced := placed_start sigil source
  refine ⟨?_, ?_, ?_, ?_⟩
  · intro n
    exact (hplaced.later n).progress
  · intro n
    exact answer_eq_getElem? _ n
  · rw [← String.length_toList]
    exact length_items_le (start sigil source)
  · intro before e after heq
    have htiles : Tiles sigil source.toList 0 (start sigil source).items :=
      tiles_of_lexed (lexed_items (start sigil source)) [] rfl
    exact (htiles.error_last before e after heq).1

end TokenStream
end Stencil
