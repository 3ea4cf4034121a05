import Stencil.Proofs.Automaton
import Stencil.Proofs.Blocks
import Stencil.Proofs.Closed
import Stencil.Proofs.Items
import Stencil.Proofs.Tiling

namespace Stencil

/-- The directive that an error of the parser is about. -/
def ParseError.directive : ParseError → String
  | unterminatedBlock opener _ => opener
  | malformedDirective content => content

/-- The directives among tokens, where they stand. -/
def directives (ts : List (Spanned Token)) : List (Spanned String) :=
  ts.filterMap fun t =>
    match t.value with
    | .plain _ => none
    | .directive content => some ⟨content, t.span⟩

theorem mem_directives {marker : Spanned String} {ts : List (Spanned Token)} :
    marker ∈ directives ts ↔ ⟨.directive marker.value, marker.span⟩ ∈ ts := by
  rw [directives, List.mem_filterMap]
  constructor
  · rintro ⟨⟨token, span⟩, hmem, hmarker⟩
    cases token with
    | plain text => simp at hmarker
    | directive content =>
      cases hmarker
      exact hmem
  · intro hmem
    exact ⟨_, hmem, rfl⟩

namespace OpenBlock

def markers (blocks : List OpenBlock) : List (Spanned String) := blocks.map (·.marker)

theorem markers_react (block : OpenBlock) (below : List OpenBlock) (marker : Spanned String) :
    markers (block.react below marker) ⊆ marker :: markers (block :: below) := by
  unfold react
  split <;> split_ifs <;> simp [markers]

theorem markers_stepDirective (blocks : List OpenBlock) (marker : Spanned String) :
    markers (stepDirective blocks marker) ⊆ marker :: markers blocks := by
  unfold stepDirective
  split_ifs
  · simp [markers]
  · simp [markers]
  · cases blocks with
    | nil => simp [markers]
    | cons block below => exact markers_react block below marker

theorem markers_step (blocks : List OpenBlock) (t : Spanned Token) :
    markers (step blocks t) ⊆ markers blocks ++ directives [t] := by
  obtain ⟨token, span⟩ := t
  cases token with
  | plain text => simp [step]
  | directive content =>
    intro marker hmem
    have hcons := markers_stepDirective blocks ⟨content, span⟩ hmem
    simpa [directives, or_comm] using hcons

/-- Every open block is marked by a directive that has been read. -/
theorem markers_foldl_step (blocks : List OpenBlock) (ts : List (Spanned Token)) :
    markers (ts.foldl step blocks) ⊆ markers blocks ++ directives ts := by
  induction ts generalizing blocks with
  | nil => simp
  | cons t ts ih =>
    intro marker hmem
    have hstep := markers_step blocks t
    have htail := ih (step blocks t) hmem
    have hsplit : directives (t :: ts) = directives [t] ++ directives ts :=
      List.filterMap_append (l := [t])
    rw [hsplit, ← List.append_assoc, List.mem_append]
    rcases List.mem_append.1 htail with hmem | hmem
    · exact .inl (hstep hmem)
    · exact .inr hmem

end OpenBlock

namespace Reading

theorem mem_directives_of_run {ts : List (Spanned Token)} {e : Spanned ParseError}
    (h : start.run ts = .error e) : ⟨e.value.directive, e.span⟩ ∈ directives ts := by
  have hblocks := run_eq_blocks start ts
  -- a malformed directive is reported itself, an open block at the directive that marks it
  cases hfind : ts.find? (·.value.malformed) with
  | some t =>
    simp only [hfind, h, Except.error.injEq] at hblocks
    subst hblocks
    have hmem := List.mem_of_find?_eq_some hfind
    have hmalformed := List.find?_some hfind
    obtain ⟨token, span⟩ := t
    cases token with
    | plain text => simp [Token.malformed] at hmalformed
    | directive content => exact mem_directives.2 hmem
  | none =>
    have hmarkers := OpenBlock.markers_foldl_step (blocks start) ts
    simp only [hfind, h] at hblocks
    generalize ts.foldl OpenBlock.step (blocks start) = final at hblocks hmarkers
    cases final with
    | nil =>
      obtain ⟨tree, htree⟩ := hblocks
      cases htree
    | cons block below =>
      cases hblocks
      exact hmarkers (by simp [OpenBlock.markers, ParseError.directive])

/-- What the errors of a template are reported at: an item that cannot be read, or a directive. -/
inductive Reported (items : List TokenStream.Item) : Spanned TemplateError → Prop where
  | lexical {e : LexicalError} {span : Span} (h : .error ⟨e, span⟩ ∈ items) :
      Reported items ⟨.lexical e, span⟩
  | parse {e : ParseError} {span : Span} (h : .ok ⟨.directive e.directive, span⟩ ∈ items) :
      Reported items ⟨.parse e, span⟩

theorem reported_of_runItems {items : List TokenStream.Item} {e : Spanned TemplateError}
    (h : start.runItems items = .error e) : Reported items e := by
  unfold runItems at h
  cases hcollect : collect items with
  | error found =>
    rw [hcollect] at h
    cases h
    exact .lexical (mem_of_collect_eq_error hcollect)
  | ok ts =>
    simp only [hcollect] at h
    cases hrun : start.run ts with
    | ok root => simp [hrun] at h
    | error found =>
      simp only [hrun, Except.error.injEq] at h
      subst h
      have hitems : items = ts.map .ok := collect_eq_ok_iff.1 hcollect
      have hmem := mem_directives.1 (mem_directives_of_run hrun)
      exact .parse (hitems ▸ List.mem_map_of_mem hmem)

end Reading

section Slices

variable {sigil : Char}

theorem not_mem_plainTokens {offset : Nat} {slice text : List Char} {item : TokenStream.Item}
    (hitem : ∀ text span, item ≠ .ok ⟨.plain text, span⟩) :
    item ∉ (plainTokens offset slice text).map .ok := by
  intro hmem
  unfold plainTokens at hmem
  split at hmem
  · simp at hmem
  · exact hitem _ _ (by simpa using hmem)

/-- A directive's span covers it, brackets or sigils included. -/
theorem Lexed.slice_of_directive {offset : Nat} {source : List Char} {items : List TokenStream.Item}
    {content : String} {span : Span} (h : Lexed sigil offset source items)
    (hmem : .ok ⟨.directive content, span⟩ ∈ items) :
    ∃ before slice after, source = before ++ slice ++ after ∧
      DirectiveRun sigil slice content.toList ∧
      span = ⟨offset + Text.bytes before, offset + Text.bytes before + Text.bytes slice⟩ := by
  have hplain {offset : Nat} {slice text : List Char} :
      (.ok ⟨.directive content, span⟩ : TokenStream.Item) ∉ (plainTokens offset slice text).map .ok :=
    not_mem_plainTokens (by simp)
  induction h with
  | done => exact absurd hmem hplain
  | @directive offset run text slice found rest items hrun hslice _ ih =>
    rcases List.mem_append.1 hmem with hmem | hmem
    · exact absurd hmem hplain
    rcases List.mem_cons.1 hmem with heq | hmem
    · cases heq
      exact ⟨run, slice, rest, by simp, by simpa using hslice, rfl⟩
    · obtain ⟨before, others, after, rfl, hothers, rfl⟩ := ih hmem
      exact ⟨run ++ slice ++ before, others, after, by simp, hothers, by simp [Nat.add_assoc]⟩
  | unclosed =>
    rcases List.mem_append.1 hmem with hmem | hmem
    · exact absurd hmem hplain
    · simp at hmem

/-- What cannot be read is a directive that is never closed, and all before it can. -/
theorem Lexed.slice_of_error {offset : Nat} {source : List Char} {items : List TokenStream.Item}
    {e : Spanned LexicalError} (h : Lexed sigil offset source items) (hmem : .error e ∈ items) :
    ∃ before slice terminator, source = before ++ slice ∧ Closed sigil before ∧
      OpenDirective sigil slice terminator ∧
      e = ⟨.unterminatedDirective terminator,
        ⟨offset + Text.bytes before, offset + Text.bytes before + Text.bytes slice⟩⟩ := by
  have hplain {offset : Nat} {slice text : List Char} :
      (.error e : TokenStream.Item) ∉ (plainTokens offset slice text).map .ok :=
    not_mem_plainTokens (by simp)
  induction h with
  | done => exact absurd hmem hplain
  | @directive offset run text slice found rest items hrun hslice _ ih =>
    rcases List.mem_append.1 hmem with hmem | hmem
    · exact absurd hmem hplain
    rcases List.mem_cons.1 hmem with heq | hmem
    · cases heq
    · obtain ⟨before, others, terminator, rfl, hbefore, hothers, rfl⟩ := ih hmem
      exact ⟨run ++ (slice ++ before), others, terminator, by simp, .directive hrun hslice hbefore,
        hothers, by simp [Nat.add_assoc]⟩
  | @unclosed offset run text slice terminator hrun hslice =>
    rcases List.mem_append.1 hmem with hmem | hmem
    · exact absurd hmem hplain
    · cases List.mem_singleton.1 hmem
      exact ⟨run, slice, terminator, rfl, .plain hrun, hslice, rfl⟩

theorem DirectiveRun.head_eq {slice content : List Char} (h : DirectiveRun sigil slice content) :
    slice.head? = some sigil := by
  cases h <;> rfl

theorem OpenDirective.head_eq {slice : List Char} {terminator : Char}
    (h : OpenDirective sigil slice terminator) : slice.head? = some sigil := by
  cases h <;> rfl

theorem OpenDirective.items_eq {slice : List Char} {terminator : Char}
    (h : OpenDirective sigil slice terminator) :
    (TokenStream.start sigil (String.ofList slice)).items =
      [.error ⟨.unterminatedDirective terminator, ⟨0, Text.bytes slice⟩⟩] := by
  rw [TokenStream.items_start_eq_iff]
  have hlexed : Lexed sigil 0 ([] ++ slice) _ := .unclosed .nil h
  simpa [plainTokens] using hlexed

end Slices

/-- Why a text between two others gives an error, whatever stands around it. -/
def TemplateError.ExplainedBy (sigil : Char) (front text back : String) : TemplateError → Prop
  | lexical e =>
    back = "" ∧ (∃ ts, Token.ofSource sigil front = .ok ts) ∧
      (TokenStream.start sigil text).items = [.error ⟨e, ⟨0, Text.bytes text.toList⟩⟩]
  | parse e =>
    (TokenStream.start sigil text).items =
      [.ok ⟨.directive e.directive, ⟨0, Text.bytes text.toList⟩⟩]
  | context _ => False

theorem exists_explanation {sigil : Char} {source : String} {e : TemplateError} {span : Span}
    (h : Reading.Reported (TokenStream.start sigil source).items ⟨e, span⟩) :
    ∃ front text back : String, source = front ++ text ++ back ∧
      span = ⟨Text.bytes front.toList, Text.bytes front.toList + Text.bytes text.toList⟩ ∧
      text.toList.head? = some sigil ∧ e.ExplainedBy sigil front text back := by
  have hlexed := TokenStream.lexed_start sigil source
  cases h with
  | lexical hmem =>
    obtain ⟨before, slice, terminator, hsource, hbefore, hslice, heq⟩ := hlexed.slice_of_error hmem
    cases heq
    obtain ⟨ts, hts⟩ := hbefore.exists_lexed 0
    refine ⟨String.ofList before, String.ofList slice, "", ?_, by simp, by simpa using hslice.head_eq,
      rfl, ⟨ts, ?_⟩, by simpa using hslice.items_eq⟩
    · rw [← String.toList_inj, hsource]
      simp
    · rw [Token.ofSource_eq_ok_iff]
      simpa using hts
  | parse hmem =>
    obtain ⟨before, slice, after, hsource, hslice, rfl⟩ := hlexed.slice_of_directive hmem
    refine ⟨String.ofList before, String.ofList slice, String.ofList after, ?_, by simp,
      by simpa using hslice.head_eq, ?_⟩
    · rw [← String.toList_inj, hsource]
      simp
    · have halone := TokenStream.directive_alone hslice
      rw [String.ofList_toList] at halone
      simpa [TemplateError.ExplainedBy] using halone

/-- Every error of a template is reported at whole characters that start with a sigil, and these alone
    are the directive that the error is about. -/
theorem Template.error_explained {options : Options} {source : String} {e : TemplateError} {span : Span}
    (h : parse options source = .error ⟨e, span⟩) :
    ∃ front text back : String, source = front ++ text ++ back ∧
      span = ⟨Text.bytes front.toList, Text.bytes front.toList + Text.bytes text.toList⟩ ∧
      text.toList.head? = some options.sigil ∧
      (span.start < span.stop ∧ span.stop ≤ Text.bytes source.toList ∧
        span.clamp (Text.bytes source.toList) = span) ∧
      e.ExplainedBy options.sigil front text back := by
  have hreported := Reading.reported_of_runItems (parse_eq_error_iff.1 h)
  obtain ⟨front, text, back, hsource, hspan, hhead, hexplained⟩ := exists_explanation hreported
  refine ⟨front, text, back, hsource, hspan, hhead, ?_, hexplained⟩
  have hne : text.toList ≠ [] := by
    intro hnil
    rw [hnil] at hhead
    cases hhead
  have hpos := Text.bytes_pos hne
  have hlength : Text.bytes source.toList =
      Text.bytes front.toList + Text.bytes text.toList + Text.bytes back.toList := by
    rw [hsource]
    simp [Nat.add_assoc]
  have hstart : span.start = Text.bytes front.toList := congrArg Span.start hspan
  have hstop : span.stop = Text.bytes front.toList + Text.bytes text.toList :=
    congrArg Span.stop hspan
  exact ⟨by omega, by omega, Span.clamp_of_le (by omega) (by omega)⟩

/-- A chain in which a later condition is the one left open. -/
theorem Template.error_explained_chain :
    let source := "é$if(x)$$elseif(y)$$if(z)$$endif$"
    let e : TemplateError :=
      .parse (.unterminatedBlock "elseif(y)" "'elseif(...)', 'else' or 'endif'")
    let span : Span := ⟨9, 20⟩
    parse ⟨'$'⟩ source = .error ⟨e, span⟩ ∧
      ∃ front text back : String, source = front ++ text ++ back ∧
        span = ⟨Text.bytes front.toList, Text.bytes front.toList + Text.bytes text.toList⟩ ∧
        text.toList.head? = some '$' ∧
        (span.start < span.stop ∧ span.stop ≤ Text.bytes source.toList ∧
          span.clamp (Text.bytes source.toList) = span) ∧
        e.ExplainedBy '$' front text back := by
  intro source e span
  have hscan : Automaton.scan '$' "é$if(x)$$elseif(y)$$if(z)$$endif$".toList =
      [.ok ⟨.plain "é", ⟨0, 2⟩⟩, .ok ⟨.directive "if(x)", ⟨2, 9⟩⟩,
        .ok ⟨.directive "elseif(y)", ⟨9, 20⟩⟩, .ok ⟨.directive "if(z)", ⟨20, 27⟩⟩,
        .ok ⟨.directive "endif", ⟨27, 34⟩⟩] := by
    rfl
  have h : parse ⟨'$'⟩ source = .error ⟨e, span⟩ := by
    rw [parse_eq_error_iff, ← Automaton.scan_of_lexed (TokenStream.lexed_start '$' source), hscan]
    rfl
  exact ⟨h, error_explained h⟩

end Stencil
