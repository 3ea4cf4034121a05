import Stencil.Proofs.Closed
import Stencil.Proofs.Items

namespace Stencil

/-- What some run of plain text is read as. -/
def PlainPart (text : List Char) (ts : List (Spanned Token)) : Prop :=
  ∃ offset slice, ts = plainTokens offset slice text

/-- Where a run of plain text stops: at a directive, or for good. -/
def PlainStop (sigil : Char) (rest : List Char) : Prop :=
  PlainEnd sigil rest ∨ ∃ after, rest = sigil :: after ∧ Mark.read sigil after = .directive

section Seam

variable {sigil : Char}

theorem PlainRun.items_append {run text rest : List Char} (hrun : PlainRun sigil run text)
    (hrest : PlainStop sigil rest) (offset : Nat) :
    ∃ p, PlainPart text p ∧ TokenStream.items ⟨sigil, offset, run ++ rest⟩ =
      p.map .ok ++ TokenStream.items ⟨sigil, offset + Text.bytes run, rest⟩ := by
  rcases hrest with hend | ⟨after, rfl, hread⟩
  · have hnothing : TokenStream.items ⟨sigil, offset + Text.bytes run, rest⟩ = [] :=
      TokenStream.items_of_lexed (.done .nil hend)
    refine ⟨_, ⟨offset, run ++ rest, rfl⟩, ?_⟩
    rw [TokenStream.items_of_lexed (.done hrun hend), hnothing, List.append_nil]
  · have hstop := plainText_of_directive hread
    exact ⟨_, ⟨offset, run, rfl⟩,
      TokenStream.items_of_plainText (hrun.plainText_eq hstop) hstop offset⟩

/-- At the end of a closed source only plain text can meet what follows. -/
theorem Closed.items_append {source : List Char} (h : Closed sigil source) (offset : Nat) :
    ∃ (ts : List (Spanned Token)) (text : List Char), ∀ {run more rest : List Char},
      PlainRun sigil run more → PlainStop sigil rest →
        ∃ p, PlainPart (text ++ more) p ∧
          TokenStream.items ⟨sigil, offset, source ++ (run ++ rest)⟩ =
            ts.map .ok ++ (p.map .ok ++
              TokenStream.items ⟨sigil, offset + Text.bytes (source ++ run), rest⟩) := by
  induction h generalizing offset with
  | @plain last text hlast =>
    refine ⟨[], text, ?_⟩
    intro run more rest hrun hrest
    obtain ⟨p, hp, hitems⟩ := (hlast.append hrun).items_append hrest offset
    rw [List.append_assoc] at hitems
    exact ⟨p, hp, hitems⟩
  | @directive before text slice content source hbefore hslice _ ih =>
    -- the text that is still open is that of the last run, after the directive
    obtain ⟨ts, last, hseam⟩ := ih (offset + Text.bytes before + Text.bytes slice)
    let found : Spanned Token := ⟨.directive (String.ofList content),
      ⟨offset + Text.bytes before, offset + Text.bytes before + Text.bytes slice⟩⟩
    refine ⟨plainTokens offset before text ++ found :: ts, last, ?_⟩
    intro run more rest hrun hrest
    obtain ⟨p, hp, hitems⟩ := hseam hrun hrest
    obtain ⟨after, hsigil, hread, hstep⟩ :=
      TokenStream.directive_of_run hslice (offset + Text.bytes before) (source ++ (run ++ rest))
    have hwhole := TokenStream.items_of_directive hbefore hsigil hread hstep
    have hbytes : offset + Text.bytes (before ++ (slice ++ source) ++ run) =
        offset + Text.bytes before + Text.bytes slice + Text.bytes (source ++ run) := by
      simp [Nat.add_assoc]
    rw [hitems] at hwhole
    rw [hbytes]
    exact ⟨p, hp, by simpa [found] using hwhole⟩

end Seam

def textNodes (text : List Char) : List Node :=
  if text = [] then [] else [.text (String.ofList text)]

namespace Reading

theorem steps_plainPart {text : List Char} {ts : List (Spanned Token)} (h : PlainPart text ts)
    (r : Reading) : r.steps ts = .ok (r.append (textNodes text)) := by
  obtain ⟨offset, slice, rfl⟩ := h
  unfold plainTokens textNodes
  split
  · simp [steps, append]
    rfl
  · simp [steps, step, *]

theorem steps_of_run {ts p : List (Spanned Token)} {text : List Char} {root : Node}
    (hp : PlainPart text p) (h : start.run (ts ++ p) = .ok root) :
    ∃ nodes, start.steps ts = .ok ⟨[], nodes⟩ ∧ root = .sequence (nodes ++ textNodes text) := by
  rw [run_eq_steps, steps_append] at h
  cases hts : start.steps ts with
  | error e =>
    rw [hts] at h
    cases h
  | ok r =>
    obtain ⟨frames, nodes⟩ := r
    rw [hts] at h
    change steps ⟨frames, nodes⟩ p >>= finish = _ at h
    rw [steps_plainPart hp] at h
    -- a text opens no block and closes none
    cases frames with
    | nil =>
      cases h
      exact ⟨nodes, rfl, rfl⟩
    | cons frame frames => cases h

/-- What two sources come to is put together from what the second comes to without the plain text
    that it starts with. -/
theorem runItems_append {sigil : Char} {u : String} {first : Node}
    (hu : start.runItems (TokenStream.start sigil u).items = .ok first)
    (hcut : ¬ CutInComment sigil u.toList) (v : String) :
    ∃ nodes text more tail, first = .sequence (nodes ++ textNodes text) ∧
      relocateResult (Span.later (Text.bytes u.toList)) id
          (start.runItems (TokenStream.start sigil v).items) =
        (start.runItems tail).map (Node.behind (textNodes more)) ∧
      start.runItems (TokenStream.start sigil (u ++ v)).items =
        (start.runItems tail).map (Node.behind (nodes ++ textNodes (text ++ more))) := by
  obtain ⟨us, hus, hrun⟩ := runItems_eq_ok_iff.1 hu
  have hlexed : Lexed sigil 0 u.toList (us.map .ok) := Token.ofSource_eq_ok_iff.1 hus
  have hclosed : Closed sigil u.toList := closed_iff.2 ⟨⟨us, hlexed⟩, hcut⟩
  obtain ⟨ts, text, hseam⟩ := hclosed.items_append 0
  obtain ⟨others, more, rest, hv, hothers, hrest⟩ := exists_plainRun sigil v.toList
  let tail := TokenStream.items ⟨sigil, 0 + Text.bytes (u.toList ++ others), rest⟩
  -- the first source on its own
  obtain ⟨p, hp, hfirst⟩ := hseam .nil (.inl .done)
  rw [TokenStream.items_nil, List.append_nil, List.append_nil, List.append_nil,
    TokenStream.items_of_lexed hlexed, ← List.map_append] at hfirst
  rw [eq_of_map_ok hfirst] at hrun
  rw [List.append_nil] at hp
  obtain ⟨nodes, hnodes, hroot⟩ := steps_of_run hp hrun
  -- the second source's items are known at its own start, so they are moved to where the first ends
  have hmoved : TokenStream.items ⟨sigil, 0 + Text.bytes u.toList, v.toList⟩ =
      (TokenStream.start sigil v).items.map (·.move (Span.later (Text.bytes u.toList))) :=
    TokenStream.items_later sigil 0 _ v.toList
  obtain ⟨q, hq, hsecond⟩ := hothers.items_append hrest (0 + Text.bytes u.toList)
  obtain ⟨w, hw, hboth⟩ := hseam hothers hrest
  have hwhole : (TokenStream.start sigil (u ++ v)).items = ts.map .ok ++ (w.map .ok ++ tail) := by
    rw [TokenStream.start, String.toList_append, hv, hboth]
  refine ⟨nodes, text, more, tail, hroot, ?_, ?_⟩
  · rw [← runItems_move, ← hmoved, hv, hsecond, Nat.add_assoc, ← Text.bytes_append,
      runItems_of_steps (steps_plainPart hq start)]
    exact runItems_behind (textNodes more) tail
  · rw [hwhole, runItems_of_steps hnodes, runItems_of_steps (steps_plainPart hw _)]
    exact runItems_behind (nodes ++ textNodes (text ++ more)) tail

end Reading

namespace Node

theorem renderAll_textNodes (scope : Scope) (text : List Char) :
    renderAll scope (textNodes text) = String.ofList text := by
  unfold textNodes
  split <;> simp [renderAll, render, *]

theorem render_behind {root : Node} (h : root.IsSequence) (scope : Scope) (front : List Node) :
    render scope (root.behind front) = renderAll scope front ++ render scope root := by
  cases root with
  | sequence nodes => exact renderAll_append scope front nodes
  | _ => exact h.elim

theorem render_seam {root : Node} (h : root.IsSequence) (scope : Scope) (nodes : List Node)
    (text more : List Char) :
    render scope (root.behind (nodes ++ textNodes (text ++ more))) =
      render scope (sequence (nodes ++ textNodes text)) ++
        render scope (root.behind (textNodes more)) := by
  simp only [render_behind h, render, renderAll_append, renderAll_textNodes, String.ofList_append,
    String.append_assoc]

end Node

namespace Template

open Reading

/-- Nothing meets at the seam of two sources but plain text: what the first writes comes first, and
    an error of the second is found where it stands. -/
theorem parse_append {options : Options} {u : String} {first : Template}
    (hu : parse options u = .ok first) (hcut : ¬ CutInComment options.sigil u.toList) (v : String) :
    (∀ second, parse options v = .ok second →
      ∃ whole, parse options (u ++ v) = .ok whole ∧
        ∀ data, ∃ x y, renderSource options u data = .ok x ∧ renderSource options v data = .ok y ∧
          renderSource options (u ++ v) data = .ok (x ++ y)) ∧
    ∀ e start stop, parse options v = .error ⟨e, ⟨start, stop⟩⟩ →
      parse options (u ++ v) =
        .error ⟨e, ⟨start + Text.bytes u.toList, stop + Text.bytes u.toList⟩⟩ := by
  obtain ⟨nodes, text, more, tail, hfirst, hv, hwhole⟩ :=
    runItems_append (parse_eq_ok_iff.1 hu) hcut v
  refine ⟨?_, ?_⟩
  · intro second hsecond
    rw [parse_eq_ok_iff.1 hsecond] at hv
    cases htail : Reading.start.runItems tail with
    | error e =>
      rw [htail] at hv
      cases hv
    | ok root =>
      rw [htail] at hv hwhole
      have hroot : second.root = root.behind (textNodes more) := Except.ok.inj hv
      have hparse : parse options (u ++ v) = .ok ⟨root.behind (nodes ++ textNodes (text ++ more))⟩ :=
        parse_eq_ok_iff.2 hwhole
      refine ⟨_, hparse, ?_⟩
      intro data
      refine ⟨_, _, renderSource_eq hu data, renderSource_eq hsecond data, ?_⟩
      rw [renderSource_eq hparse, Node.render_seam (isSequence_of_runItems htail), hfirst, hroot]
  · intro e start stop he
    rw [parse_eq_error_iff.1 he] at hv
    cases htail : Reading.start.runItems tail with
    | error other =>
      rw [htail] at hv hwhole
      have hother : Spanned.move (Span.later (Text.bytes u.toList)) ⟨e, ⟨start, stop⟩⟩ = other :=
        Except.error.inj hv
      rw [parse_eq_error_iff, hwhole, ← hother]
      rfl
    | ok root =>
      rw [htail] at hv
      cases hv

/-- Sigils meet at the seam, and a keyword that no block waits for. -/
theorem parse_append_sigils :
    let options : Options := ⟨'$'⟩
    let u := "$x$$--b\n$$"
    parse options u = .ok ⟨.sequence [.lookup "x", .text "$"]⟩ ∧ ¬ CutInComment '$' u.toList ∧
      (∃ whole, parse options (u ++ "$$$endif$") = .ok whole ∧
        ∀ data, ∃ x y, renderSource options u data = .ok x ∧
          renderSource options "$$$endif$" data = .ok y ∧
          renderSource options (u ++ "$$$endif$") data = .ok (x ++ y)) ∧
      parse options (u ++ "$if(x)$") = .error ⟨.parse (.unterminatedBlock "if(x)"
        "'elseif(...)', 'else' or 'endif'"), ⟨10, 17⟩⟩ := by
  intro options u
  have hdirective (body : List Char) (hne : body ≠ []) (hb : BareStart body) (hs : '$' ∉ body) :
      DirectiveRun '$' ('$' :: (body ++ ['$'])) (Text.trim body) := .bare hne hb hs
  have hnil (offset : Nat) : Lexed '$' offset [] [] := .done .nil .done
  have huItems : (TokenStream.start '$' "$x$$--b\n$$").items =
      [.ok ⟨.directive "x", ⟨0, 3⟩⟩, .ok ⟨.plain "$", ⟨3, 10⟩⟩] := by
    have hx := hdirective ['x'] (by decide) ⟨by decide, by decide⟩ (by decide)
    have hrun : PlainRun '$' _ ['$'] :=
      .comment (by decide) (by decide : '\n' ∉ ['b']) (.escape .nil)
    exact TokenStream.items_of_lexed (.directive .nil hx (.done hrun .done))
  have hvItems : (TokenStream.start '$' "$$$endif$").items =
      [.ok ⟨.plain "$", ⟨0, 2⟩⟩, .ok ⟨.directive "endif", ⟨2, 9⟩⟩] := by
    have hendIf := hdirective "endif".toList (by decide) ⟨by decide, by decide⟩ (by decide)
    exact TokenStream.items_of_lexed (.directive (.escape .nil) hendIf (hnil _))
  have hwItems : (TokenStream.start '$' "$if(x)$").items = [.ok ⟨.directive "if(x)", ⟨0, 7⟩⟩] := by
    have hif := hdirective "if(x)".toList (by decide) ⟨by decide, by decide⟩ (by decide)
    exact TokenStream.items_of_lexed (.directive .nil hif (hnil _))
  have hu : parse options u = .ok ⟨.sequence [.lookup "x", .text "$"]⟩ := by
    rw [parse_eq_ok_iff, huItems]
    rfl
  have hv : parse options "$$$endif$" = .ok ⟨.sequence [.text "$", .lookup "endif"]⟩ := by
    rw [parse_eq_ok_iff, hvItems]
    rfl
  have hw : parse options "$if(x)$" = .error ⟨.parse (.unterminatedBlock "if(x)"
      "'elseif(...)', 'else' or 'endif'"), ⟨0, 7⟩⟩ := by
    rw [parse_eq_error_iff, hwItems]
    rfl
  have hcut : ¬ CutInComment '$' u.toList := not_cutInComment_of_tails (by decide)
  have hbytes : Text.bytes u.toList = 10 := by decide
  have herror := (parse_append hu hcut _).2 _ _ _ hw
  rw [hbytes] at herror
  exact ⟨hu, hcut, (parse_append hu hcut _).1 _ hv, herror⟩

end Template
end Stencil
