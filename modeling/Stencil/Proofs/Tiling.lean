import Stencil.Proofs.Lexemes

namespace Stencil

namespace Text

/-- The first bytes of a text and the rest of it, if both are whole characters. -/
def splitBytes? : Nat → List Char → Option (List Char × List Char)
  | 0, cs => some ([], cs)
  | _ + 1, [] => none
  | n + 1, c :: cs =>
    if c.utf8Size ≤ n + 1 then
      (splitBytes? (n + 1 - c.utf8Size) cs).map fun (taken, rest) => (c :: taken, rest)
    else none

/-- The text of a span that starts and ends between characters. -/
def slice? (source : List Char) (span : Span) : Option (List Char) := do
  let (_, rest) ← splitBytes? span.start source
  if span.start ≤ span.stop then
    let (text, _) ← splitBytes? (span.stop - span.start) rest
    return text
  else none

theorem splitBytes?_append (taken rest : List Char) :
    splitBytes? (bytes taken) (taken ++ rest) = some (taken, rest) := by
  induction taken with
  | nil => simp [splitBytes?]
  | cons c taken ih =>
    have hpos := c.utf8Size_pos
    obtain ⟨n, hn⟩ : ∃ n, c.utf8Size + bytes taken = n + 1 := Nat.exists_eq_add_one.2 (by omega)
    have hsub : n + 1 - c.utf8Size = bytes taken := by omega
    rw [bytes_cons, hn, List.cons_append, splitBytes?, if_pos (by omega), hsub, ih]
    rfl

theorem slice?_append (before slice after : List Char) :
    slice? (before ++ (slice ++ after)) ⟨bytes before, bytes before + bytes slice⟩ = some slice := by
  simp [slice?, splitBytes?_append]

theorem bytes_pos {text : List Char} (h : text ≠ []) : 0 < bytes text := by
  have hpos := List.length_pos_iff.2 h
  have hle := length_le_bytes text
  omega

end Text

/-- Nothing but comments that end. -/
def Comments (sigil : Char) (text : List Char) : Prop :=
  ∃ lines : List (List Char), (∀ line ∈ lines, '\n' ∉ line) ∧
    text = lines.flatMap fun line => commentText sigil line ++ ['\n']

/-- Comments of which the last one may be cut off. -/
def CommentsToEnd (sigil : Char) (text : List Char) : Prop :=
  Comments sigil text ∨
    ∃ closed line, Comments sigil closed ∧ '\n' ∉ line ∧ text = closed ++ commentText sigil line

/-- The stretches between `start` and `stop` that spans leave open. -/
def Span.gaps (start stop : Nat) : List Span → List Span
  | [] => [⟨start, stop⟩]
  | span :: spans => ⟨start, span.start⟩ :: gaps span.stop stop spans

namespace TokenStream

def Item.span : Item → Span
  | .ok t => t.span
  | .error e => e.span

/-- Items cover a source from an offset on but for comments, and each token is what its slice of the
    source is read as. -/
structure Tiles (sigil : Char) (source : List Char) (offset : Nat) (items : List Item) : Prop where
  covered : ∀ item ∈ items, offset ≤ item.span.start ∧ item.span.start < item.span.stop ∧
    item.span.stop ≤ Text.bytes source ∧ ∃ text, Text.slice? source item.span = some text
  ordered : (items.map Item.span).Pairwise fun s t => s.stop ≤ t.start
  error_last : ∀ before e after, items = before ++ .error e :: after →
    after = [] ∧ e.span.stop = Text.bytes source
  gaps : ∀ gap ∈ Span.gaps offset (Text.bytes source) (items.map Item.span),
    ∃ text, Text.slice? source gap = some text ∧
      (Comments sigil text ∨ gap.stop = Text.bytes source ∧ CommentsToEnd sigil text) ∧
      (start sigil (String.ofList text)).items = []
  alone : ∀ t, .ok t ∈ items → ∃ text, Text.slice? source t.span = some text ∧
    (start sigil (String.ofList text)).items = [.ok ⟨t.value, ⟨0, Text.bytes text⟩⟩]

section Tiles

variable {sigil : Char}

theorem comments_of_run {gap : List Char} (h : PlainRun sigil gap []) : Comments sigil gap := by
  generalize htext : ([] : List Char) = text at h
  induction h with
  | nil => exact ⟨[], by simp, rfl⟩
  | char => cases htext
  | escape => cases htext
  | @comment body _ _ _ hb _ ih =>
    obtain ⟨lines, hlines, rfl⟩ := ih htext
    refine ⟨body :: lines, ?_, by simp⟩
    intro line hmem
    rcases List.mem_cons.1 hmem with rfl | hmem
    · exact hb
    · exact hlines line hmem

theorem commentsToEnd_of_run {gap skipped : List Char} (hgap : PlainRun sigil gap [])
    (hend : PlainEnd sigil skipped) : CommentsToEnd sigil (gap ++ skipped) := by
  cases hend with
  | done => exact .inl (by simpa using comments_of_run hgap)
  | comment _ hb => exact .inr ⟨gap, _, comments_of_run hgap, hb, rfl⟩

theorem items_start_eq_iff {text : List Char} {items : List Item} :
    (start sigil (String.ofList text)).items = items ↔ Lexed sigil 0 text items := by
  rw [items_eq_iff, start, String.toList_ofList]

theorem tiles_nil {before gap : List Char} (hgap : CommentsToEnd sigil gap)
    (hempty : (start sigil (String.ofList gap)).items = []) :
    Tiles sigil (before ++ gap) (Text.bytes before) [] := by
  refine ⟨by simp, by simp, by simp, ?_, by simp⟩
  intro span hmem
  have hspan : span = ⟨Text.bytes before, Text.bytes before + Text.bytes gap⟩ := by
    simpa [Span.gaps] using hmem
  have hslice := Text.slice?_append before gap []
  rw [List.append_nil] at hslice
  subst hspan
  exact ⟨gap, hslice, .inr ⟨by simp, hgap⟩, hempty⟩

theorem tiles_cons {source : List Char} {item : Item} {items : List Item}
    (before gap slice rest : List Char) (hsource : source = before ++ gap ++ (slice ++ rest))
    (hspan : item.span = ⟨Text.bytes (before ++ gap), Text.bytes (before ++ gap) + Text.bytes slice⟩)
    (hgap : Comments sigil gap) (hempty : (start sigil (String.ofList gap)).items = [])
    (hne : slice ≠ []) (herror : ∀ e, item = .error e → rest = [] ∧ items = [])
    (halone : ∀ t, item = .ok t →
      (start sigil (String.ofList slice)).items = [.ok ⟨t.value, ⟨0, Text.bytes slice⟩⟩])
    (h : Tiles sigil source (Text.bytes (before ++ gap ++ slice)) items) :
    Tiles sigil source (Text.bytes before) (item :: items) := by
  subst hsource
  have hpos := Text.bytes_pos hne
  have hslice := Text.slice?_append (before ++ gap) slice rest
  rw [← hspan] at hslice
  refine ⟨?_, ?_, ?_, ?_, ?_⟩
  · intro other hmem
    rcases List.mem_cons.1 hmem with rfl | hmem
    · refine ⟨?_, ?_, ?_, slice, hslice⟩ <;> simp [hspan] <;> omega
    · obtain ⟨hstart, hlt, hle, htext⟩ := h.covered other hmem
      simp only [Text.bytes_append] at hstart
      exact ⟨by omega, hlt, hle, htext⟩
  · rw [List.map_cons, List.pairwise_cons]
    refine ⟨?_, h.ordered⟩
    intro span hmem
    obtain ⟨other, hother, rfl⟩ := List.mem_map.1 hmem
    have hstart := (h.covered other hother).1
    rw [Text.bytes_append] at hstart
    rwa [hspan]
  · intro first e after heq
    cases first with
    | nil =>
      obtain ⟨rfl, rfl⟩ := List.cons.inj heq
      obtain ⟨rfl, rfl⟩ := herror e rfl
      have hstop : e.span.stop = Text.bytes (before ++ gap) + Text.bytes slice :=
        congrArg Span.stop hspan
      exact ⟨rfl, by simp [hstop, Nat.add_assoc]⟩
    | cons _ first => exact h.error_last first e after (List.cons.inj heq).2
  · intro span hmem
    rw [List.map_cons, Span.gaps, List.mem_cons] at hmem
    rcases hmem with rfl | hmem
    · have hfirst := Text.slice?_append before gap (slice ++ rest)
      rw [← List.append_assoc, ← Text.bytes_append] at hfirst
      exact ⟨gap, by rw [hspan]; exact hfirst, .inl hgap, hempty⟩
    · refine h.gaps span ?_
      rwa [hspan, ← Text.bytes_append] at hmem
  · intro t hmem
    rcases List.mem_cons.1 hmem with heq | hmem
    · subst heq
      exact ⟨slice, hslice, halone t rfl⟩
    · exact h.alone t hmem

theorem plain_alone {run skipped text : List Char} (hrun : PlainRun sigil run text)
    (hend : PlainEnd sigil skipped) :
    (start sigil (String.ofList (run ++ skipped))).items =
      (plainTokens 0 (run ++ skipped) text).map .ok :=
  items_start_eq_iff.2 (.done hrun hend)

theorem gap_alone {gap : List Char} (hgap : PlainRun sigil gap []) :
    (start sigil (String.ofList gap)).items = [] := by
  have h := plain_alone hgap .done
  rwa [List.append_nil] at h

theorem directive_alone {slice content : List Char} (h : DirectiveRun sigil slice content) :
    (start sigil (String.ofList slice)).items =
      [.ok ⟨.directive (String.ofList content), ⟨0, Text.bytes slice⟩⟩] := by
  rw [items_start_eq_iff]
  have hlexed : Lexed sigil (0 + Text.bytes [] + Text.bytes slice) [] [] := .done .nil .done
  have hall := Lexed.directive .nil h hlexed
  simpa [plainTokens] using hall

theorem tiles_plain {source : List Char} {items : List Item} (before run skipped rest text : List Char)
    (hsource : source = before ++ (run ++ skipped ++ rest)) (hrun : PlainRun sigil run text)
    (htext : text ≠ []) (hend : PlainEnd sigil skipped)
    (h : Tiles sigil source (Text.bytes (before ++ (run ++ skipped))) items) :
    Tiles sigil source (Text.bytes before)
      ((plainTokens (Text.bytes before) (run ++ skipped) text).map .ok ++ items) := by
  have halone := plain_alone hrun hend
  rw [plainTokens, if_neg htext] at halone ⊢
  refine tiles_cons before [] (run ++ skipped) rest (by simpa using hsource) (by simp [Item.span])
    (comments_of_run .nil) (gap_alone .nil) (by simp [hrun.ne_nil htext]) (fun e he => nomatch he)
    ?_ (by simpa using h)
  rintro t ⟨⟩
  simpa using halone

theorem tiles_directive {source : List Char} {item : Item} {items : List Item}
    (before run slice rest text : List Char)
    (hsource : source = before ++ run ++ (slice ++ rest)) (hrun : PlainRun sigil run text)
    (hspan : item.span = ⟨Text.bytes before + Text.bytes run,
      Text.bytes before + Text.bytes run + Text.bytes slice⟩)
    (hne : slice ≠ []) (herror : ∀ e, item = .error e → rest = [] ∧ items = [])
    (halone : ∀ t, item = .ok t →
      (start sigil (String.ofList slice)).items = [.ok ⟨t.value, ⟨0, Text.bytes slice⟩⟩])
    (h : Tiles sigil source (Text.bytes before + Text.bytes run + Text.bytes slice) items) :
    Tiles sigil source (Text.bytes before)
      ((plainTokens (Text.bytes before) run text).map .ok ++ item :: items) := by
  -- a run that comes out empty is the gap before the directive; any other has a token of its own
  by_cases htext : text = []
  · subst htext
    exact tiles_cons before run slice rest hsource (by simpa using hspan) (comments_of_run hrun)
      (gap_alone hrun) hne herror halone (by simpa [Nat.add_assoc] using h)
  · have hitem : Tiles sigil source (Text.bytes (before ++ run)) (item :: items) :=
      tiles_cons (before ++ run) [] slice rest (by simpa using hsource) (by simpa using hspan)
        (comments_of_run .nil) (gap_alone .nil) hne herror halone (by simpa [Nat.add_assoc] using h)
    have hplain := tiles_plain before run [] (slice ++ rest) text (by simpa using hsource) hrun htext
      .done (by simpa using hitem)
    simpa using hplain

theorem tiles_of_lexed {offset : Nat} {rest : List Char} {items : List Item}
    (h : Lexed sigil offset rest items) (before : List Char) (hoffset : offset = Text.bytes before) :
    Tiles sigil (before ++ rest) offset items := by
  induction h generalizing before with
  | @done offset run text skipped hrun hend =>
    subst hoffset
    by_cases htext : text = []
    · subst htext
      exact tiles_nil (commentsToEnd_of_run hrun hend) (items_start_eq_iff.2 (.done hrun hend))
    · have hnil : Tiles sigil (before ++ (run ++ skipped) ++ [])
          (Text.bytes (before ++ (run ++ skipped))) [] :=
        tiles_nil (.inl (comments_of_run .nil)) (gap_alone .nil)
      rw [List.append_nil] at hnil
      have hplain := tiles_plain before run skipped [] text (by simp) hrun htext hend hnil
      rwa [List.append_nil] at hplain
  | @directive offset run text slice content rest items hrun hslice _ ih =>
    subst hoffset
    have htail := ih (before ++ run ++ slice) (by simp [Nat.add_assoc])
    refine tiles_directive before run slice rest text (by simp) hrun rfl hslice.ne_nil
      (fun e he => nomatch he) ?_ (by simpa using htail)
    rintro t ⟨⟩
    exact directive_alone hslice
  | @unclosed offset run text slice terminator hrun hslice =>
    subst hoffset
    have hnil : Tiles sigil (before ++ run ++ slice ++ []) (Text.bytes (before ++ run ++ slice)) [] :=
      tiles_nil (.inl (comments_of_run .nil)) (gap_alone .nil)
    exact tiles_directive before run slice [] text (by simp) hrun rfl hslice.ne_nil
      (fun e he => ⟨rfl, rfl⟩) (fun t ht => nomatch ht) (by simpa [Nat.add_assoc] using hnil)

theorem tiles_source (sigil : Char) (source : String) :
    Tiles sigil source.toList 0 (start sigil source).items :=
  tiles_of_lexed (lexed_items (start sigil source)) [] rfl

end Tiles

end TokenStream
end Stencil
