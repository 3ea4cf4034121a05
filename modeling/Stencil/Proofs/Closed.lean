import Mathlib.Data.List.Infix
import Stencil.Proofs.Lexemes

namespace Stencil

/-- Plain text, comments that end and closed directives. -/
inductive Closed (sigil : Char) : List Char → Prop where
  | plain {run text : List Char} (hrun : PlainRun sigil run text) : Closed sigil run
  | directive {run text slice content rest : List Char} (hrun : PlainRun sigil run text)
      (hslice : DirectiveRun sigil slice content) (h : Closed sigil rest) :
      Closed sigil (run ++ (slice ++ rest))

/-- A comment reaches the end of the source without its newline. -/
def CutInComment (sigil : Char) (source : List Char) : Prop :=
  ∃ front body, source = front ++ commentText sigil body ∧ sigil ≠ '-' ∧ '\n' ∉ body ∧
    Closed sigil front

section Closed

variable {sigil : Char}

theorem not_cutInComment_of_tails {source : List Char}
    (h : ∀ tail ∈ source.tails, [sigil, '-', '-'] <+: tail → '\n' ∈ tail.drop 3) :
    ¬ CutInComment sigil source := by
  rintro ⟨front, body, rfl, -, hbody, -⟩
  have htail : commentText sigil body ∈ (front ++ commentText sigil body).tails :=
    (List.mem_tails _ _).2 (List.suffix_append _ _)
  exact hbody (h _ htail ⟨body, rfl⟩)

theorem CutInComment.cons_directive {run text slice content rest : List Char}
    (h : CutInComment sigil rest) (hrun : PlainRun sigil run text)
    (hslice : DirectiveRun sigil slice content) : CutInComment sigil (run ++ (slice ++ rest)) := by
  obtain ⟨front, body, rfl, hs, hbody, hfront⟩ := h
  exact ⟨run ++ (slice ++ front), body, by simp, hs, hbody, .directive hrun hslice hfront⟩

theorem closed_of_lexed {offset : Nat} {source : List Char} {ts : List (Spanned Token)}
    (h : Lexed sigil offset source (ts.map .ok)) (hcut : ¬ CutInComment sigil source) :
    Closed sigil source := by
  generalize hitems : ts.map Except.ok = items at h
  induction h generalizing ts with
  | @done offset run text skipped hrun hend =>
    cases hend with
    | done =>
      rw [List.append_nil]
      exact .plain hrun
    | comment hs hb => exact absurd ⟨run, _, rfl, hs, hb, .plain hrun⟩ hcut
  | directive hrun hslice _ ih =>
    obtain ⟨t, more, -, -, hmore⟩ := map_ok_eq_append_cons hitems
    have hrest := ih (fun h => hcut (h.cons_directive hrun hslice)) hmore.symm
    exact .directive hrun hslice hrest
  | unclosed =>
    obtain ⟨t, more, -, ht, -⟩ := map_ok_eq_append_cons hitems
    cases ht

theorem PlainRun.plainText_self {run text : List Char} (h : PlainRun sigil run text) :
    plainText sigil run = (text, []) := by
  have hnil : plainText sigil [] = ([], []) := plainText_of_not_mem (by simp)
  have hplain := h.plainText_eq hnil
  rwa [List.append_nil] at hplain

theorem DirectiveRun.plainText_eq {slice content : List Char} (h : DirectiveRun sigil slice content)
    (rest : List Char) : plainText sigil (slice ++ rest) = ([], slice ++ rest) := by
  obtain ⟨after, hsigil, hread, -⟩ := TokenStream.directive_of_run h 0 rest
  rw [hsigil]
  exact plainText_of_directive hread

theorem DirectiveRun.rest_inj {slice slice' content content' rest rest' : List Char}
    (h : DirectiveRun sigil slice content) (h' : DirectiveRun sigil slice' content')
    (heq : slice ++ rest = slice' ++ rest') : rest = rest' := by
  obtain ⟨after, hsigil, -, hstep⟩ := TokenStream.directive_of_run h 0 rest
  obtain ⟨after', hsigil', -, hstep'⟩ := TokenStream.directive_of_run h' 0 rest'
  have hafter : sigil :: after = sigil :: after' := by
    rw [← hsigil, heq, hsigil']
  obtain rfl := (List.cons.inj hafter).2
  rw [heq, hstep'] at hstep
  exact (congrArg (·.2.rest) hstep).symm

/-- A comment that is cut off takes in what follows it; a run of plain text does not. -/
theorem PlainRun.not_cut {run text text' body : List Char} (hrun : PlainRun sigil run text)
    (hs : sigil ≠ '-') (hbody : '\n' ∉ body) :
    ¬ PlainRun sigil (run ++ commentText sigil body) text' := by
  intro hcut
  obtain ⟨c, hc, hline⟩ : ∃ c, c ≠ sigil ∧ c ≠ '\n' := by
    by_cases h : sigil = 'a'
    · subst h
      exact ⟨'b', by decide, by decide⟩
    · exact ⟨'a', Ne.symm h, by decide⟩
  have hshort : PlainEnd sigil (commentText sigil body) := .comment hs hbody
  have hlong : PlainEnd sigil (commentText sigil (body ++ [c])) :=
    .comment hs (by simp [hbody, Ne.symm hline])
  have hsource : run ++ commentText sigil body ++ [c] = run ++ commentText sigil (body ++ [c]) := by
    simp [commentText]
  have htext := hrun.plainText_eq hshort.plainText_eq
  have htext' := hrun.plainText_eq hlong.plainText_eq
  rw [hcut.plainText_self] at htext
  rw [← hsource, (hcut.append (.char hc .nil)).plainText_self, ← htext] at htext'
  simp at htext'

theorem Closed.not_cut {front body : List Char} (hfront : Closed sigil front) (hs : sigil ≠ '-')
    (hbody : '\n' ∉ body) : ¬ Closed sigil (front ++ commentText sigil body) := by
  intro h
  -- what stands before the first directive decides: both readings of the source have the same
  induction hfront with
  | @plain run text hrun =>
    generalize hsource : run ++ commentText sigil body = source at h
    have hcut : PlainEnd sigil (commentText sigil body) := .comment hs hbody
    have hplain := hrun.plainText_eq hcut.plainText_eq
    cases h with
    | plain hrun' =>
      subst hsource
      exact hrun.not_cut hs hbody hrun'
    | @directive run' text' slice content rest hrun' hslice hrest =>
      rw [hsource, hrun'.plainText_eq (hslice.plainText_eq rest)] at hplain
      have hnil : slice ++ rest = [] := congrArg Prod.snd hplain
      exact hslice.ne_nil (List.append_eq_nil_iff.1 hnil).1
  | @directive run text slice content front hrun hslice _ ih =>
    generalize hsource : run ++ (slice ++ front) ++ commentText sigil body = source at h
    rw [List.append_assoc, List.append_assoc] at hsource
    have hplain := hrun.plainText_eq (hslice.plainText_eq (front ++ commentText sigil body))
    rw [hsource] at hplain
    cases h with
    | plain hrun' =>
      rw [hrun'.plainText_self] at hplain
      have hnil : slice ++ (front ++ commentText sigil body) = [] := congrArg Prod.snd hplain.symm
      exact hslice.ne_nil (List.append_eq_nil_iff.1 hnil).1
    | @directive run' text' slice' content' rest hrun' hslice' hrest =>
      rw [hrun'.plainText_eq (hslice'.plainText_eq rest)] at hplain
      have hslices : slice' ++ rest = slice ++ (front ++ commentText sigil body) :=
        congrArg Prod.snd hplain
      rw [hslice'.rest_inj hslice hslices] at hrest
      exact ih hrest

theorem Closed.exists_lexed {source : List Char} (h : Closed sigil source) (offset : Nat) :
    ∃ ts : List (Spanned Token), Lexed sigil offset source (ts.map .ok) := by
  induction h generalizing offset with
  | @plain run text hrun =>
    have hlexed := @Lexed.done sigil offset _ _ _ hrun .done
    rw [List.append_nil] at hlexed
    exact ⟨_, hlexed⟩
  | @directive run text slice content rest hrun hslice _ ih =>
    obtain ⟨ts, hrest⟩ := ih (offset + Text.bytes run + Text.bytes slice)
    have hlexed := Lexed.directive hrun hslice hrest
    rw [← List.map_cons, ← List.map_append] at hlexed
    exact ⟨_, hlexed⟩

/-- Closed sources are those that can be tokenized and are not cut off. -/
theorem closed_iff {offset : Nat} {source : List Char} :
    Closed sigil source ↔
      (∃ ts : List (Spanned Token), Lexed sigil offset source (ts.map .ok)) ∧
        ¬ CutInComment sigil source := by
  constructor
  · intro h
    refine ⟨h.exists_lexed offset, ?_⟩
    rintro ⟨front, body, rfl, hs, hbody, hfront⟩
    exact hfront.not_cut hs hbody h
  · rintro ⟨⟨ts, h⟩, hcut⟩
    exact closed_of_lexed h hcut

end Closed
end Stencil
