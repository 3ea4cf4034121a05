import Stencil.Proofs.Lexemes
import Stencil.Proofs.Lossless
import Stencil.Proofs.Relocation
import Stencil.Template

namespace Stencil

def Span.later (n : Nat) (span : Span) : Span := ⟨span.start + n, span.stop + n⟩

def TokenStream.Item.move (f : Span → Span) : TokenStream.Item → TokenStream.Item :=
  relocateResult f (Spanned.move f)

theorem map_move_ok (f : Span → Span) (ts : List (Spanned Token)) :
    (ts.map .ok : List TokenStream.Item).map (·.move f) = (ts.map (·.move f)).map .ok := by
  simp [Function.comp_def, TokenStream.Item.move, relocateResult]

theorem Span.later_slice (n offset before length : Nat) :
    Span.later n ⟨offset + before, offset + before + length⟩ =
      ⟨offset + n + before, offset + n + before + length⟩ := by
  simp only [Span.later, Span.mk.injEq]
  omega

theorem plainTokens_later (n offset : Nat) (slice text : List Char) :
    (plainTokens offset slice text).map (·.move (Span.later n)) =
      plainTokens (offset + n) slice text := by
  unfold plainTokens
  split
  · rfl
  · simp [Spanned.move, Span.later, Nat.add_right_comm]

/-- A source that starts elsewhere is read as the same, elsewhere. -/
theorem Lexed.later {sigil : Char} {offset : Nat} {source : List Char} {items : List TokenStream.Item}
    (h : Lexed sigil offset source items) (n : Nat) :
    Lexed sigil (offset + n) source (items.map (·.move (Span.later n))) := by
  induction h with
  | @done offset run text skipped hrun hend =>
    rw [map_move_ok, plainTokens_later]
    exact .done hrun hend
  | @directive offset run text slice content rest items hrun hslice _ ih =>
    have hrest : offset + Text.bytes run + Text.bytes slice + n =
        offset + n + Text.bytes run + Text.bytes slice := by omega
    rw [hrest] at ih
    rw [List.map_append, List.map_cons, map_move_ok, plainTokens_later]
    simp only [TokenStream.Item.move, relocateResult, Spanned.move, Span.later_slice]
    exact .directive hrun hslice ih
  | @unclosed offset run text slice terminator hrun hslice =>
    rw [List.map_append, List.map_singleton, map_move_ok, plainTokens_later]
    simp only [TokenStream.Item.move, relocateResult, Spanned.move, Span.later_slice]
    exact .unclosed hrun hslice

/-- The same source from a later offset on. -/
theorem TokenStream.items_later (sigil : Char) (offset n : Nat) (source : List Char) :
    items ⟨sigil, offset + n, source⟩ = (items ⟨sigil, offset, source⟩).map (·.move (Span.later n)) :=
  items_of_lexed ((lexed_items ⟨sigil, offset, source⟩).later n)

theorem collect_append {ε α : Type} (xs : List α) (items : List (Except ε α)) :
    collect (xs.map .ok ++ items) = (collect items).map (xs ++ ·) := by
  induction xs with
  | nil => cases h : collect items <;> simp [h, Except.map]
  | cons x xs ih =>
    rw [List.map_cons, List.cons_append, collect, ih]
    cases collect items <;> rfl

theorem mem_of_collect_eq_error {ε α : Type} {items : List (Except ε α)} {e : ε}
    (h : collect items = .error e) : .error e ∈ items := by
  obtain ⟨xs, rest, rfl⟩ := collect_eq_error_iff.1 h
  exact List.mem_append_right _ List.mem_cons_self

theorem collect_move (f : Span → Span) (items : List TokenStream.Item) :
    collect (items.map (·.move f)) = relocateResult f (List.map (·.move f)) (collect items) := by
  induction items with
  | nil => rfl
  | cons item items ih =>
    cases item with
    | error e => rfl
    | ok t =>
      change (collect (items.map (·.move f))).map _ = relocateResult f _ ((collect items).map _)
      rw [ih]
      cases collect items <;> rfl

namespace Reading

/-- Reads what is left of a template, if it can be tokenized. -/
def runItems (r : Reading) (items : List TokenStream.Item) : Except (Spanned TemplateError) Node :=
  match collect items with
  | .error e => .error (e.map .lexical)
  | .ok ts =>
    match r.run ts with
    | .error e => .error (e.map .parse)
    | .ok root => .ok root

theorem runItems_eq_ok_iff {r : Reading} {items : List TokenStream.Item} {root : Node} :
    r.runItems items = .ok root ↔ ∃ ts, collect items = .ok ts ∧ r.run ts = .ok root := by
  unfold runItems
  cases collect items with
  | error e => simp
  | ok ts => cases hrun : r.run ts <;> simp [hrun]

theorem runItems_of_steps {r next : Reading} {ts : List (Spanned Token)} (h : r.steps ts = .ok next)
    (items : List TokenStream.Item) : r.runItems (ts.map .ok ++ items) = next.runItems items := by
  rw [runItems, runItems, collect_append]
  cases collect items with
  | error e => rfl
  | ok more =>
    have hrun : r.run (ts ++ more) = next.run more := by
      rw [run_eq_steps, run_eq_steps, steps_append, h]
      rfl
    simp only [Except.map, hrun]

theorem runItems_relocate {front : List Node} {move : Span → Span} (r : Reading)
    (items : List TokenStream.Item) :
    (r.relocate front move).runItems (items.map (·.move move)) =
      relocateResult move (Node.behind front) (r.runItems items) := by
  rw [runItems, runItems, collect_move]
  cases collect items with
  | error e => rfl
  | ok ts =>
    simp only [relocateResult, run_relocate]
    cases r.run ts <;> rfl

theorem move_id (item : TokenStream.Item) : item.move id = item := by
  cases item <;> rfl

/-- Nodes that stand outside of blocks do not change how what follows them is read. -/
theorem runItems_behind (front : List Node) (items : List TokenStream.Item) :
    runItems ⟨[], front⟩ items = (start.runItems items).map (Node.behind front) := by
  have hstart : start.relocate front id = ⟨[], front⟩ := by
    simp [relocate, relocateFrames, start]
  have hitems : items.map (·.move id) = items := by
    simp [move_id]
  have hrun := @runItems_relocate front id start items
  rw [hstart, hitems] at hrun
  rw [hrun]
  cases start.runItems items <;> rfl

theorem runItems_move (move : Span → Span) (items : List TokenStream.Item) :
    start.runItems (items.map (·.move move)) = relocateResult move id (start.runItems items) := by
  rw [← Node.behind_nil]
  exact @runItems_relocate [] move start items

theorem isSequence_of_runItems {items : List TokenStream.Item} {root : Node}
    (h : start.runItems items = .ok root) : root.IsSequence := by
  obtain ⟨ts, -, hrun⟩ := runItems_eq_ok_iff.1 h
  exact (Node.shaped_of_parse ((parse_eq_run ts).trans hrun)).1

end Reading

namespace Template

open Reading

theorem parse_eq_runItems (options : Options) (source : String) :
    parse options source =
      (start.runItems (TokenStream.start options.sigil source).items).map Template.mk := by
  unfold parse Token.ofSource runItems
  cases collect (TokenStream.start options.sigil source).items with
  | error e => rfl
  | ok ts =>
    simp only [parse_eq_run]
    cases start.run ts <;> rfl

theorem parse_eq_ok_iff {options : Options} {source : String} {t : Template} :
    parse options source = .ok t ↔
      start.runItems (TokenStream.start options.sigil source).items = .ok t.root := by
  rw [parse_eq_runItems]
  obtain ⟨root⟩ := t
  cases start.runItems (TokenStream.start options.sigil source).items <;> simp [Except.map]

theorem parse_eq_error_iff {options : Options} {source : String} {e : Spanned TemplateError} :
    parse options source = .error e ↔
      start.runItems (TokenStream.start options.sigil source).items = .error e := by
  rw [parse_eq_runItems]
  cases start.runItems (TokenStream.start options.sigil source).items <;> simp [Except.map]

theorem renderSource_eq {options : Options} {source : String} {t : Template}
    (h : parse options source = .ok t) (data : Data) :
    renderSource options source data = .ok (t.root.render (.root data)) := by
  rw [renderSource, h]
  rfl

end Template
end Stencil
