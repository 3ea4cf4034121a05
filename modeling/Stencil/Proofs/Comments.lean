import Stencil.Proofs.Concatenation
import Stencil.Proofs.ErrorSpans

namespace Stencil

/-- Moves what stands at a place or behind it, and leaves what stands before it. -/
def Span.laterFrom (place n : Nat) (span : Span) : Span :=
  if place ≤ span.start then span.later n else span

theorem Span.laterFrom_of_le {place n : Nat} {span : Span} (h : place ≤ span.start) :
    span.laterFrom place n = span.later n :=
  if_pos h

theorem Span.laterFrom_of_lt {place n : Nat} {span : Span} (h : span.start < place) :
    span.laterFrom place n = span :=
  if_neg (Nat.not_le_of_lt h)

section Gap

variable {sigil : Char}

theorem map_move_congr {f g : Span → Span} {items : List TokenStream.Item}
    (h : ∀ item ∈ items, f item.span = g item.span) :
    items.map (·.move f) = items.map (·.move g) := by
  refine List.map_congr_left ?_
  intro item hmem
  cases item with
  | error e =>
    have hspan : f e.span = g e.span := h _ hmem
    simp only [TokenStream.Item.move, relocateResult, Spanned.move, hspan]
  | ok t =>
    have hspan : f t.span = g t.span := h _ hmem
    simp only [TokenStream.Item.move, relocateResult, Spanned.move, hspan]

theorem map_move_id {f : Span → Span} {items : List TokenStream.Item}
    (h : ∀ item ∈ items, f item.span = item.span) : items.map (·.move f) = items := by
  have hid : items.map (·.move id) = items := by simp [Reading.move_id]
  exact (map_move_congr h).trans hid

theorem PlainPart.move {text : List Char} {ts : List (Spanned Token)} (h : PlainPart text ts)
    (place n : Nat) : PlainPart text (ts.map (·.move (Span.laterFrom place n))) := by
  obtain ⟨offset, slice, rfl⟩ := h
  by_cases hplace : place ≤ offset
  · refine ⟨offset + n, slice, ?_⟩
    rw [← plainTokens_later]
    unfold plainTokens
    split <;> simp [Spanned.move, Span.laterFrom_of_le, hplace]
  · refine ⟨offset, slice, ?_⟩
    unfold plainTokens
    split <;> simp [Spanned.move, Span.laterFrom, hplace]

/-- Comments between two sources only move what the second one is read as. The plain text on both
    sides is one token with or without them. -/
theorem Closed.items_gap {u : List Char} (hu : Closed sigil u) (v : List Char) :
    ∃ (ts : List (Spanned Token)) (text : List Char) (tail : List TokenStream.Item),
      (∀ t ∈ ts, t.span.start < t.span.stop ∧ t.span.stop ≤ Text.bytes u) ∧
      (∀ item ∈ tail, Text.bytes u ≤ item.span.start) ∧
      (∃ p, PlainPart text p ∧
        TokenStream.items ⟨sigil, 0, u ++ v⟩ = ts.map .ok ++ (p.map .ok ++ tail)) ∧
      ∀ {gap : List Char}, PlainRun sigil gap [] →
        ∃ p, PlainPart text p ∧ TokenStream.items ⟨sigil, 0, u ++ (gap ++ v)⟩ =
          ts.map .ok ++ (p.map .ok ++ tail.map (·.move (Span.later (Text.bytes gap)))) := by
  obtain ⟨ts, text, hseam⟩ := hu.items_append 0
  obtain ⟨run, more, rest, rfl, hrun, hrest⟩ := exists_plainRun sigil v
  refine ⟨ts, text ++ more, TokenStream.items ⟨sigil, Text.bytes (u ++ run), rest⟩, ?_, ?_, ?_, ?_⟩
  · intro t ht
    obtain ⟨p, -, hitems⟩ := hseam .nil (.inl .done)
    rw [List.append_nil, List.append_nil] at hitems
    have htiles : TokenStream.Tiles sigil u 0 (TokenStream.items ⟨sigil, 0, u⟩) :=
      TokenStream.tiles_of_lexed (TokenStream.lexed_items ⟨sigil, 0, u⟩) [] rfl
    have hmem : .ok t ∈ TokenStream.items ⟨sigil, 0, u⟩ := by
      rw [hitems]
      exact List.mem_append_left _ (List.mem_map_of_mem ht)
    obtain ⟨-, hlt, hle, -⟩ := htiles.covered _ hmem
    exact ⟨hlt, hle⟩
  · intro item hitem
    have htiles := TokenStream.tiles_of_lexed
      (TokenStream.lexed_items ⟨sigil, Text.bytes (u ++ run), rest⟩) (u ++ run) rfl
    have hstart := (htiles.covered item hitem).1
    simp only [Text.bytes_append] at hstart
    omega
  · obtain ⟨p, hp, hitems⟩ := hseam hrun hrest
    rw [Nat.zero_add] at hitems
    exact ⟨p, hp, hitems⟩
  · intro gap hgap
    obtain ⟨p, hp, hitems⟩ := hseam (hgap.append hrun) hrest
    have hoffset : 0 + Text.bytes (u ++ (gap ++ run)) = Text.bytes (u ++ run) + Text.bytes gap := by
      simp only [Text.bytes_append]
      omega
    rw [hoffset, TokenStream.items_later, List.append_assoc] at hitems
    exact ⟨p, hp, hitems⟩

end Gap

namespace Reading

/-- The span of plain text has no part in what is read. -/
theorem runItems_plainPart {text : List Char} {p q : List (Spanned Token)} (hp : PlainPart text p)
    (hq : PlainPart text q) (ts : List (Spanned Token)) (tail : List TokenStream.Item) :
    start.runItems (ts.map .ok ++ (p.map .ok ++ tail)) =
      start.runItems (ts.map .ok ++ (q.map .ok ++ tail)) := by
  have hrun (more : List (Spanned Token)) :
      start.run (ts ++ (p ++ more)) = start.run (ts ++ (q ++ more)) := by
    simp only [run_eq_steps, steps_append, steps_plainPart hp, steps_plainPart hq]
  simp only [runItems, collect_append]
  cases collect tail with
  | error e => rfl
  | ok more => simp only [Except.map, hrun]

variable {sigil : Char}

theorem runItems_gap {u gap : List Char} (hu : Closed sigil u) (hgap : PlainRun sigil gap [])
    (v : List Char) :
    start.runItems (TokenStream.items ⟨sigil, 0, u ++ (gap ++ v)⟩) =
      relocateResult (Span.laterFrom (Text.bytes u) (Text.bytes gap)) id
        (start.runItems (TokenStream.items ⟨sigil, 0, u ++ v⟩)) := by
  obtain ⟨ts, text, tail, hts, htail, ⟨p, hp, hwithout⟩, hgaps⟩ := hu.items_gap v
  obtain ⟨q, hq, hwith⟩ := hgaps hgap
  let items : List TokenStream.Item := ts.map .ok
  have hfront : items.map (·.move (Span.laterFrom (Text.bytes u) (Text.bytes gap))) = items := by
    refine map_move_id ?_
    intro item hmem
    obtain ⟨t, ht, rfl⟩ := List.mem_map.1 hmem
    obtain ⟨hlt, hle⟩ := hts t ht
    exact Span.laterFrom_of_lt (Nat.lt_of_lt_of_le hlt hle)
  have hback : tail.map (·.move (Span.later (Text.bytes gap))) =
      tail.map (·.move (Span.laterFrom (Text.bytes u) (Text.bytes gap))) :=
    map_move_congr fun item hmem => (Span.laterFrom_of_le (htail item hmem)).symm
  rw [hwithout, hwith, hback, ← runItems_move, List.map_append, List.map_append, hfront,
    map_move_ok]
  exact runItems_plainPart hq (hp.move _ _) ts _

/-- No error is reported at a span with a part in each of two sources. -/
theorem Reported.beside {u v : List Char} {e : Spanned TemplateError} (hu : Closed sigil u)
    (h : Reported (TokenStream.items ⟨sigil, 0, u ++ v⟩) e) :
    e.span.start < e.span.stop ∧ e.span.stop ≤ Text.bytes u ∨ Text.bytes u ≤ e.span.start := by
  obtain ⟨ts, text, tail, hts, htail, ⟨p, ⟨offset, slice, rfl⟩, hwithout⟩, -⟩ := hu.items_gap v
  have hside {item : TokenStream.Item} (hmem : item ∈ TokenStream.items ⟨sigil, 0, u ++ v⟩)
      (hitem : ∀ text span, item ≠ .ok ⟨.plain text, span⟩) :
      item.span.start < item.span.stop ∧ item.span.stop ≤ Text.bytes u ∨
        Text.bytes u ≤ item.span.start := by
    rw [hwithout] at hmem
    rcases List.mem_append.1 hmem with hmem | hmem
    · obtain ⟨t, ht, rfl⟩ := List.mem_map.1 hmem
      exact .inl (hts t ht)
    rcases List.mem_append.1 hmem with hmem | hmem
    · exact absurd hmem (not_mem_plainTokens hitem)
    · exact .inr (htail item hmem)
  cases h with
  | lexical hmem => exact hside hmem (by simp)
  | parse hmem => exact hside hmem (by simp)

end Reading

namespace Template

open Reading

/-- A comment between two sources is as if it were not there. Errors are the same, those of the second
    source later by the length of the comment. -/
theorem parse_comment {options : Options} {u body : String} (hs : options.sigil ≠ '-')
    (hu : ∃ ts, Token.ofSource options.sigil u = .ok ts)
    (hcut : ¬ CutInComment options.sigil u.toList) (hbody : '\n' ∉ body.toList) (v : String) :
    let comment := String.singleton options.sigil ++ "--" ++ body ++ "\n"
    (∃ t, parse options (u ++ v) = .ok t ∧ parse options (u ++ comment ++ v) = .ok t ∧
      ∀ data, renderSource options (u ++ comment ++ v) data = renderSource options (u ++ v) data) ∨
    ∃ e span, parse options (u ++ v) = .error ⟨e, span⟩ ∧
      (span.stop ≤ Text.bytes u.toList ∧ parse options (u ++ comment ++ v) = .error ⟨e, span⟩ ∨
        Text.bytes u.toList ≤ span.start ∧ parse options (u ++ comment ++ v) =
          .error ⟨e, span.later (Text.bytes comment.toList)⟩) := by
  intro comment
  have hclosed : Closed options.sigil u.toList := by
    obtain ⟨ts, hts⟩ := hu
    exact closed_iff.2 ⟨⟨ts, Token.ofSource_eq_ok_iff.1 hts⟩, hcut⟩
  have hgap : PlainRun options.sigil comment.toList [] := by
    have hline := PlainRun.comment hs hbody .nil
    simpa [comment, commentText] using hline
  have hwith : start.runItems (TokenStream.start options.sigil (u ++ comment ++ v)).items =
      relocateResult (Span.laterFrom (Text.bytes u.toList) (Text.bytes comment.toList)) id
        (start.runItems (TokenStream.start options.sigil (u ++ v)).items) := by
    have hrun := runItems_gap hclosed hgap v.toList
    simpa [TokenStream.start] using hrun
  cases hwithout : parse options (u ++ v) with
  | ok t =>
    left
    rw [parse_eq_ok_iff.1 hwithout] at hwith
    have hparse : parse options (u ++ comment ++ v) = .ok t := parse_eq_ok_iff.2 hwith
    refine ⟨t, rfl, hparse, ?_⟩
    intro data
    rw [renderSource, renderSource, hparse, hwithout]
  | error found =>
    right
    obtain ⟨e, span⟩ := found
    have hitems := parse_eq_error_iff.1 hwithout
    have hreported : Reported (TokenStream.items ⟨options.sigil, 0, u.toList ++ v.toList⟩) ⟨e, span⟩ := by
      have hall := reported_of_runItems hitems
      rwa [TokenStream.start, String.toList_append] at hall
    rw [hitems] at hwith
    refine ⟨e, span, rfl, ?_⟩
    rcases hreported.beside hclosed with ⟨hlt, hle⟩ | hle
    · refine .inl ⟨hle, parse_eq_error_iff.2 ?_⟩
      rw [hwith]
      simp only [relocateResult, Spanned.move, Span.laterFrom_of_lt (Nat.lt_of_lt_of_le hlt hle)]
    · refine .inr ⟨hle, parse_eq_error_iff.2 ?_⟩
      rw [hwith]
      simp only [relocateResult, Spanned.move, Span.laterFrom_of_le hle]

/-- A comment in an open block, between two escapes: the text on both sides stays one token, and the
    block behind it is reported later. -/
theorem parse_comment_open_block :
    let options : Options := ⟨'$'⟩
    let u := "$if(x)$a$$"
    let v := "$$b$for(xs)$"
    let comment := String.singleton '$' ++ "--" ++ " $c" ++ "\n"
    let e : TemplateError := .parse (.unterminatedBlock "for(xs)" "'sep' or 'endfor'")
    (∃ ts, Token.ofSource '$' u = .ok ts) ∧ ¬ CutInComment '$' u.toList ∧ '\n' ∉ " $c".toList ∧
      parse options (u ++ v) = .error ⟨e, ⟨13, 22⟩⟩ ∧
      parse options (u ++ comment ++ v) = .error ⟨e, ⟨20, 29⟩⟩ := by
  intro options u v comment e
  have hlexed (source : String) :
      Automaton.scan '$' source.toList = (TokenStream.start '$' source).items :=
    Automaton.scan_of_lexed (TokenStream.lexed_start '$' source)
  have hu : ∃ ts, Token.ofSource '$' u = .ok ts := by
    have hscan : Automaton.scan '$' "$if(x)$a$$".toList =
        [.ok ⟨.directive "if(x)", ⟨0, 7⟩⟩, .ok ⟨.plain "a$", ⟨7, 10⟩⟩] := by
      rfl
    refine ⟨[⟨.directive "if(x)", ⟨0, 7⟩⟩, ⟨.plain "a$", ⟨7, 10⟩⟩], ?_⟩
    rw [Token.ofSource, ← hlexed, hscan]
    rfl
  have hboth : parse options (u ++ v) = .error ⟨e, ⟨13, 22⟩⟩ := by
    have hscan : Automaton.scan '$' "$if(x)$a$$$$b$for(xs)$".toList =
        [.ok ⟨.directive "if(x)", ⟨0, 7⟩⟩, .ok ⟨.plain "a$$b", ⟨7, 13⟩⟩,
          .ok ⟨.directive "for(xs)", ⟨13, 22⟩⟩] := by
      rfl
    have hsource : u ++ v = "$if(x)$a$$$$b$for(xs)$" := by decide
    rw [parse_eq_error_iff, hsource, ← hlexed, hscan]
    rfl
  have hcut : ¬ CutInComment '$' u.toList := not_cutInComment_of_tails (by decide)
  have hbody : '\n' ∉ " $c".toList := by decide
  refine ⟨hu, hcut, hbody, hboth, ?_⟩
  have hdollar : options.sigil ≠ '-' := by decide
  rcases parse_comment hdollar hu hcut hbody v with
    ⟨t, ht, -⟩ | ⟨other, span, hother, ⟨hle, -⟩ | ⟨-, hcommented⟩⟩
  · rw [hboth] at ht
    cases ht
  · rw [hboth] at hother
    cases hother
    exact absurd hle (by decide)
  · rw [hboth] at hother
    cases hother
    have hbytes : Text.bytes comment.toList = 7 := by decide
    change parse options (u ++ comment ++ v) =
      .error ⟨e, Span.later (Text.bytes comment.toList) ⟨13, 22⟩⟩ at hcommented
    rwa [hbytes] at hcommented

end Template
end Stencil
