import Stencil.Token.Stream

namespace Stencil

/-- A comment without the end of its line. -/
def commentText (sigil : Char) (body : List Char) : List Char := sigil :: '-' :: '-' :: body

/-- What plain text is written as: sigils are doubled, and comments that end stand anywhere. -/
inductive PlainRun (sigil : Char) : List Char → List Char → Prop where
  | nil : PlainRun sigil [] []
  | char {c : Char} {run text : List Char} (hc : c ≠ sigil) (h : PlainRun sigil run text) :
      PlainRun sigil (c :: run) (c :: text)
  | escape {run text : List Char} (h : PlainRun sigil run text) :
      PlainRun sigil (sigil :: sigil :: run) (sigil :: text)
  | comment {body run text : List Char} (hs : sigil ≠ '-') (hb : '\n' ∉ body)
      (h : PlainRun sigil run text) :
      PlainRun sigil (commentText sigil body ++ '\n' :: run) text

/-- How the plain text at the end of a source ends: with its last run, or cut off in a comment. -/
inductive PlainEnd (sigil : Char) : List Char → Prop where
  | done : PlainEnd sigil []
  | comment {body : List Char} (hs : sigil ≠ '-') (hb : '\n' ∉ body) :
      PlainEnd sigil (commentText sigil body)

/-- Neither brackets nor a comment can be meant. -/
def BareStart (body : List Char) : Prop := body.head? ≠ some '{' ∧ ¬ ['-', '-'] <+: body

/-- A closed directive and its content. -/
inductive DirectiveRun (sigil : Char) : List Char → List Char → Prop where
  | curly {content : List Char} (hs : sigil ≠ '{') (hc : '}' ∉ content) :
      DirectiveRun sigil (sigil :: '{' :: (content ++ ['}'])) content
  | bare {body : List Char} (hne : body ≠ []) (hb : BareStart body) (hs : sigil ∉ body) :
      DirectiveRun sigil (sigil :: (body ++ [sigil])) (Text.trim body)

/-- A directive that is never closed, and what would close it. -/
inductive OpenDirective (sigil : Char) : List Char → Char → Prop where
  | curly {body : List Char} (hs : sigil ≠ '{') (hb : '}' ∉ body) :
      OpenDirective sigil (sigil :: '{' :: body) '}'
  | bare {body : List Char} (hb : BareStart body) (hs : sigil ∉ body) :
      OpenDirective sigil (sigil :: body) sigil

/-- The token of a slice that is read as plain text. Text that comes out empty has none. -/
def plainTokens (offset : Nat) (slice text : List Char) : List (Spanned Token) :=
  if text = [] then []
  else [⟨.plain (String.ofList text), ⟨offset, offset + Text.bytes slice⟩⟩]

/-- The items of a source from some offset on: runs of plain text alternate with directives. -/
inductive Lexed (sigil : Char) : Nat → List Char → List TokenStream.Item → Prop where
  | done {offset : Nat} {run text skipped : List Char}
      (hrun : PlainRun sigil run text) (hend : PlainEnd sigil skipped) :
      Lexed sigil offset (run ++ skipped) ((plainTokens offset (run ++ skipped) text).map .ok)
  | directive {offset : Nat} {run text slice content rest : List Char}
      {items : List TokenStream.Item}
      (hrun : PlainRun sigil run text) (hslice : DirectiveRun sigil slice content)
      (h : Lexed sigil (offset + Text.bytes run + Text.bytes slice) rest items) :
      Lexed sigil offset (run ++ (slice ++ rest))
        ((plainTokens offset run text).map .ok ++
          .ok ⟨.directive (String.ofList content),
            ⟨offset + Text.bytes run, offset + Text.bytes run + Text.bytes slice⟩⟩ :: items)
  | unclosed {offset : Nat} {run text slice : List Char} {terminator : Char}
      (hrun : PlainRun sigil run text) (hslice : OpenDirective sigil slice terminator) :
      Lexed sigil offset (run ++ slice)
        ((plainTokens offset run text).map .ok ++
          [.error ⟨.unterminatedDirective terminator,
            ⟨offset + Text.bytes run, offset + Text.bytes run + Text.bytes slice⟩⟩])

namespace Mark

theorem afterComment?_eq_none_iff {after : List Char} :
    afterComment? after = none ↔ ¬ ['-', '-'] <+: after := by
  unfold afterComment?
  split
  · simp
  · rename_i h
    simp only [true_iff]
    rintro ⟨body, rfl⟩
    exact h body rfl

theorem read_eq_directive_iff {sigil : Char} {after : List Char} :
    read sigil after = .directive ↔ after.head? ≠ some sigil ∧ ¬ ['-', '-'] <+: after := by
  rw [← afterComment?_eq_none_iff]
  unfold read
  split
  · simp [*]
  · cases afterComment? after <;> simp [*]

theorem read_escape (sigil : Char) (rest : List Char) :
    read sigil (sigil :: rest) = .escape rest := by
  simp [read]

theorem read_comment {sigil : Char} (hs : sigil ≠ '-') (body : List Char) :
    read sigil ('-' :: '-' :: body) = .comment ((body.dropWhile (· != '\n')).drop 1) := by
  simp [read, afterComment?, Ne.symm hs]

theorem dropWhile_line {line : List Char} (hl : '\n' ∉ line) (rest : List Char) :
    (line ++ rest).dropWhile (· != '\n') = rest.dropWhile (· != '\n') := by
  refine List.dropWhile_append_of_pos ?_
  intro c hc
  simpa using ne_of_mem_of_not_mem hc hl

theorem read_comment_of_mem {sigil : Char} {line : List Char} (hs : sigil ≠ '-') (hl : '\n' ∉ line)
    (rest : List Char) : read sigil ('-' :: '-' :: (line ++ '\n' :: rest)) = .comment rest := by
  rw [read_comment hs, dropWhile_line hl]
  simp

theorem read_comment_of_not_mem {sigil : Char} {body : List Char} (hs : sigil ≠ '-')
    (hb : '\n' ∉ body) : read sigil ('-' :: '-' :: body) = .comment [] := by
  have hnone := dropWhile_line hb []
  rw [List.append_nil] at hnone
  rw [read_comment hs, hnone]
  rfl

theorem read_cases (sigil : Char) (after : List Char) :
    (∃ rest, after = sigil :: rest) ∨
      (sigil ≠ '-' ∧ ∃ body, after = '-' :: '-' :: body) ∨ read sigil after = .directive := by
  by_cases hescape : after.head? = some sigil
  · left
    obtain ⟨rest, rfl⟩ := List.head?_eq_some_iff.1 hescape
    exact ⟨rest, rfl⟩
  by_cases hcomment : ['-', '-'] <+: after
  · obtain ⟨body, rfl⟩ := hcomment
    refine .inr (.inl ⟨?_, body, rfl⟩)
    rintro rfl
    exact hescape rfl
  · exact .inr (.inr (read_eq_directive_iff.2 ⟨hescape, hcomment⟩))

end Mark

section PlainText

variable {sigil : Char}

theorem plainText_of_cut {source text after : List Char}
    (h : Text.cut? sigil source = some (text, after)) :
    plainText sigil source =
      match Mark.read sigil after with
      | .escape rest => (text ++ sigil :: (plainText sigil rest).1, (plainText sigil rest).2)
      | .comment rest => (text ++ (plainText sigil rest).1, (plainText sigil rest).2)
      | .directive => (text, sigil :: after) := by
  rw [plainText]
  split
  · simp_all
  · rename_i h'
    rw [h] at h'
    cases h'
    split <;> simp_all

theorem plainText_of_not_mem {source : List Char} (h : sigil ∉ source) :
    plainText sigil source = (source, []) := by
  rw [plainText]
  split
  · rfl
  · rename_i h'
    exact absurd (Text.cut?_eq_none_iff.2 h) (by simp [h'])

theorem cut?_sigil (after : List Char) : Text.cut? sigil (sigil :: after) = some ([], after) :=
  Text.cut?_eq_some_iff.2 ⟨rfl, by simp⟩

theorem plainText_of_escape (rest : List Char) :
    plainText sigil (sigil :: sigil :: rest) =
      (sigil :: (plainText sigil rest).1, (plainText sigil rest).2) := by
  rw [plainText_of_cut (cut?_sigil _)]
  simp only [Mark.read_escape, List.nil_append]

theorem plainText_of_comment {after rest : List Char} (h : Mark.read sigil after = .comment rest) :
    plainText sigil (sigil :: after) = plainText sigil rest := by
  rw [plainText_of_cut (cut?_sigil _)]
  simp only [h, List.nil_append]

theorem plainText_of_directive {after : List Char} (h : Mark.read sigil after = .directive) :
    plainText sigil (sigil :: after) = ([], sigil :: after) := by
  rw [plainText_of_cut (cut?_sigil _)]
  simp only [h]

theorem plainText_char {c : Char} (hc : c ≠ sigil) (source : List Char) :
    plainText sigil (c :: source) = (c :: (plainText sigil source).1, (plainText sigil source).2) := by
  cases h : Text.cut? sigil source with
  | none =>
    have hs : sigil ∉ source := Text.cut?_eq_none_iff.1 h
    rw [plainText_of_not_mem hs, plainText_of_not_mem (by simp [hs, Ne.symm hc])]
  | some parts =>
    obtain ⟨text, after⟩ := parts
    have hcut : Text.cut? sigil (c :: source) = some (c :: text, after) := by
      simp [Text.cut?, hc, h]
    rw [plainText_of_cut h, plainText_of_cut hcut]
    split <;> rfl

theorem PlainRun.plainText_append {run text : List Char} (h : PlainRun sigil run text)
    (more : List Char) :
    plainText sigil (run ++ more) = (text ++ (plainText sigil more).1, (plainText sigil more).2) := by
  induction h with
  | nil => rfl
  | char hc _ ih => rw [List.cons_append, plainText_char hc, ih]; rfl
  | escape _ ih => rw [List.cons_append, List.cons_append, plainText_of_escape, ih]; rfl
  | comment hs hb _ ih =>
    simp only [commentText, List.cons_append, List.append_assoc]
    rw [plainText_of_comment (Mark.read_comment_of_mem hs hb _), ih]

theorem PlainRun.append {run text more others : List Char} (h : PlainRun sigil run text)
    (hmore : PlainRun sigil more others) : PlainRun sigil (run ++ more) (text ++ others) := by
  induction h with
  | nil => exact hmore
  | char hc _ ih => exact .char hc ih
  | escape _ ih => exact .escape ih
  | comment hs hb _ ih =>
    rw [List.append_assoc, List.cons_append]
    exact .comment hs hb ih

theorem PlainRun.ne_nil {run text : List Char} (h : PlainRun sigil run text) (htext : text ≠ []) :
    run ≠ [] := by
  rintro rfl
  cases h
  exact htext rfl

theorem PlainEnd.plainText_eq {skipped : List Char} (h : PlainEnd sigil skipped) :
    plainText sigil skipped = ([], []) := by
  cases h with
  | done => exact plainText_of_not_mem (by simp)
  | comment hs hb =>
    rw [commentText, plainText_of_comment (Mark.read_comment_of_not_mem hs hb)]
    exact plainText_of_not_mem (by simp)

theorem PlainRun.plainText_eq {run text rest left : List Char} (h : PlainRun sigil run text)
    (hrest : plainText sigil rest = ([], left)) : plainText sigil (run ++ rest) = (text, left) := by
  rw [h.plainText_append, hrest, List.append_nil]

/-- Every source starts with a run of plain text, which may be empty. -/
theorem exists_plainRun (sigil : Char) (source : List Char) :
    ∃ run text rest, source = run ++ rest ∧ PlainRun sigil run text ∧
      (PlainEnd sigil rest ∨ ∃ after, rest = sigil :: after ∧ Mark.read sigil after = .directive) := by
  -- an escape takes two characters and a comment a line, so the induction is on the length
  induction hn : source.length using Nat.strongRecOn generalizing source with
  | _ n ih =>
  subst hn
  cases source with
  | nil => exact ⟨[], [], [], rfl, .nil, .inl .done⟩
  | cons c cs =>
    by_cases hc : c = sigil
    · subst hc
      rcases Mark.read_cases c cs with ⟨rest, rfl⟩ | ⟨hs, body, rfl⟩ | hdirective
      · have hshorter : rest.length < (c :: c :: rest).length := by
          simp only [List.length_cons]
          omega
        obtain ⟨run, text, rest, rfl, hrun, hrest⟩ := ih rest.length hshorter rest rfl
        exact ⟨_, _, rest, rfl, hrun.escape, hrest⟩
      · by_cases hb : '\n' ∈ body
        · obtain ⟨line, rest, rfl, hl⟩ := List.eq_append_cons_of_mem hb
          have hshorter : rest.length < (commentText c (line ++ '\n' :: rest)).length := by
            simp only [commentText, List.length_cons, List.length_append]
            omega
          obtain ⟨run, text, rest, rfl, hrun, hrest⟩ := ih rest.length hshorter rest rfl
          exact ⟨_, _, rest, by simp [commentText], hrun.comment hs hl, hrest⟩
        · exact ⟨[], [], commentText c body, rfl, .nil, .inl (.comment hs hb)⟩
      · exact ⟨[], [], c :: cs, rfl, .nil, .inr ⟨cs, rfl, hdirective⟩⟩
    · obtain ⟨run, text, rest, rfl, hrun, hrest⟩ := ih cs.length (by simp) cs rfl
      exact ⟨_, _, rest, rfl, hrun.char hc, hrest⟩

end PlainText

section Directive

variable {sigil : Char}

theorem form_of_head {body : List Char} (h : body.head? ≠ some '{') :
    Directive.Form.read sigil body = ⟨sigil, false, body⟩ := by
  unfold Directive.Form.read
  split
  · exact absurd rfl h
  · rfl

theorem bareStart_append_sigil {body : List Char} (hne : body ≠ []) (hs : sigil ∉ body)
    (rest : List Char) : BareStart (body ++ sigil :: rest) ↔ BareStart body := by
  match body, hne with
  | [c], _ =>
    -- a lone dash and the closing sigil are no comment: the body would hold the sigil
    have hc : '-' = c → '-' ≠ sigil := by
      rintro rfl rfl
      exact hs List.mem_cons_self
    simpa [BareStart, List.cons_prefix_cons] using fun _ => hc
  | c :: d :: body, _ => simp [BareStart, List.cons_prefix_cons]

theorem OpenDirective.ne_nil {slice : List Char} {terminator : Char}
    (h : OpenDirective sigil slice terminator) : slice ≠ [] := by
  cases h <;> simp

theorem DirectiveRun.ne_nil {slice content : List Char} (h : DirectiveRun sigil slice content) :
    slice ≠ [] := by
  cases h <;> simp

theorem directive_cases {after : List Char} (h : Mark.read sigil after = .directive) :
    (∃ slice content rest, sigil :: after = slice ++ rest ∧ DirectiveRun sigil slice content) ∨
      ∃ terminator, OpenDirective sigil (sigil :: after) terminator := by
  obtain ⟨hescape, hcomment⟩ := Mark.read_eq_directive_iff.1 h
  by_cases hcurly : after.head? = some '{'
  · obtain ⟨body, rfl⟩ := List.head?_eq_some_iff.1 hcurly
    have hs : sigil ≠ '{' := by
      rintro rfl
      exact hescape rfl
    by_cases hclosed : '}' ∈ body
    · obtain ⟨content, rest, rfl, hc⟩ := List.eq_append_cons_of_mem hclosed
      exact .inl ⟨_, content, rest, by simp, .curly hs hc⟩
    · exact .inr ⟨_, .curly hs hclosed⟩
  · by_cases hclosed : sigil ∈ after
    · obtain ⟨body, rest, rfl, hs⟩ := List.eq_append_cons_of_mem hclosed
      have hne : body ≠ [] := by
        rintro rfl
        exact hescape rfl
      have hstart : BareStart body := (bareStart_append_sigil hne hs rest).1 ⟨hcurly, hcomment⟩
      exact .inl ⟨_, _, rest, by simp, .bare hne hstart hs⟩
    · exact .inr ⟨_, .bare ⟨hcurly, hcomment⟩ hclosed⟩

end Directive

namespace TokenStream

variable {sigil : Char}

theorem advance_append (offset : Nat) (taken rest : List Char) :
    (⟨sigil, offset, taken ++ rest⟩ : TokenStream).advance rest =
      ⟨sigil, offset + Text.bytes taken, rest⟩ := by
  simp [advance]

theorem advance_nil (offset : Nat) (taken : List Char) :
    (⟨sigil, offset, taken⟩ : TokenStream).advance [] = ⟨sigil, offset + Text.bytes taken, []⟩ := by
  simp [advance]

theorem directive_of_run {slice content : List Char} (h : DirectiveRun sigil slice content)
    (offset : Nat) (rest : List Char) :
    ∃ after, slice ++ rest = sigil :: after ∧ Mark.read sigil after = .directive ∧
      directive ⟨sigil, offset, slice ++ rest⟩ after =
        (.ok ⟨.directive (String.ofList content), ⟨offset, offset + Text.bytes slice⟩⟩,
          ⟨sigil, offset + Text.bytes slice, rest⟩) := by
  cases h with
  | curly hs hc =>
    refine ⟨'{' :: (content ++ '}' :: rest), by simp, ?_, ?_⟩
    · simp [Mark.read_eq_directive_iff, List.cons_prefix_cons, Ne.symm hs]
    · have hcut : Text.cut? '}' (content ++ '}' :: rest) = some (content, rest) :=
        Text.cut?_eq_some_iff.2 ⟨rfl, hc⟩
      simp only [directive, Directive.Form.read, hcut, advance_append, spanTo, if_true]
  | @bare body hne hb hs =>
    have hstart : BareStart (body ++ sigil :: rest) := (bareStart_append_sigil hne hs rest).2 hb
    have hhead : (body ++ sigil :: rest).head? ≠ some sigil := by
      cases body with
      | nil => exact absurd rfl hne
      | cons c body =>
        simp only [List.mem_cons, not_or] at hs
        simpa using Ne.symm hs.1
    have hcut : Text.cut? sigil (body ++ sigil :: rest) = some (body, rest) :=
      Text.cut?_eq_some_iff.2 ⟨rfl, hs⟩
    refine ⟨body ++ sigil :: rest, by simp, Mark.read_eq_directive_iff.2 ⟨hhead, hstart.2⟩, ?_⟩
    simp only [directive, form_of_head hstart.1, hcut, advance_append, spanTo, Bool.false_eq_true,
      if_false]

theorem directive_of_open {slice : List Char} {terminator : Char}
    (h : OpenDirective sigil slice terminator) (offset : Nat) :
    ∃ after, slice = sigil :: after ∧ Mark.read sigil after = .directive ∧
      directive ⟨sigil, offset, slice⟩ after =
        (.error ⟨.unterminatedDirective terminator, ⟨offset, offset + Text.bytes slice⟩⟩,
          ⟨sigil, offset + Text.bytes slice, []⟩) := by
  cases h with
  | @curly body hs hb =>
    refine ⟨'{' :: body, rfl, ?_, ?_⟩
    · simp [Mark.read_eq_directive_iff, List.cons_prefix_cons, Ne.symm hs]
    · have hcut : Text.cut? '}' body = none := Text.cut?_eq_none_iff.2 hb
      simp only [directive, Directive.Form.read, hcut, advance_nil, spanTo]
  | @bare body hb hs =>
    have hhead : body.head? ≠ some sigil := fun h => hs (List.mem_of_mem_head? h)
    have hcut : Text.cut? sigil body = none := Text.cut?_eq_none_iff.2 hs
    refine ⟨body, rfl, Mark.read_eq_directive_iff.2 ⟨hhead, hb.2⟩, ?_⟩
    simp only [directive, form_of_head hb.1, hcut, advance_nil, spanTo]

theorem next_of_text {t : TokenStream} {text left : List Char}
    (h : plainText t.sigil t.rest = (text, left)) (hne : text ≠ []) :
    t.next = (some (.ok ⟨.plain (String.ofList text), t.spanTo (t.advance left)⟩), t.advance left) := by
  simp [next, h, hne]

theorem next_of_end {t : TokenStream} (h : plainText t.sigil t.rest = ([], [])) :
    t.next = (none, t.advance []) := by
  simp [next, h]

theorem next_of_directive {t : TokenStream} {c : Char} {after : List Char}
    (h : plainText t.sigil t.rest = ([], c :: after)) :
    t.next = (some ((t.advance (c :: after)).directive after).1,
      ((t.advance (c :: after)).directive after).2) := by
  simp [next, h]

theorem items_of_next {t u : TokenStream} {item : Item} (h : t.next = (some item, u)) :
    t.items = item :: u.items := by
  rw [items]
  split
  · rename_i h'
    rw [h] at h'
    cases h'
  · rename_i h'
    rw [h] at h'
    cases h'
    rfl

theorem items_congr {t u : TokenStream} (h : t.next = u.next) : t.items = u.items := by
  rw [items, items, h]

theorem items_nil (offset : Nat) : items ⟨sigil, offset, []⟩ = [] := by
  have hplain : plainText sigil [] = ([], []) := plainText_of_not_mem (by simp)
  rw [items]
  split
  · rfl
  · rename_i h
    simp [next, hplain] at h

/-- Plain text at the front of a source is read as one token, or skipped if it comes out empty. -/
theorem items_of_plainText {taken text rest : List Char}
    (h : plainText sigil (taken ++ rest) = (text, rest)) (hrest : plainText sigil rest = ([], rest))
    (offset : Nat) :
    items ⟨sigil, offset, taken ++ rest⟩ =
      (plainTokens offset taken text).map .ok ++ items ⟨sigil, offset + Text.bytes taken, rest⟩ := by
  unfold plainTokens
  split
  · rename_i htext
    subst htext
    refine items_congr ?_
    simp only [next, h, hrest, advance_append]
    simp [advance]
  · rename_i htext
    have hne : text.isEmpty = false := by simpa using htext
    refine items_of_next ?_
    simp only [next, h, advance_append, spanTo, hne]
    rfl

/-- A directive after plain text, closed or not. -/
theorem items_of_directive {run text rest after : List Char} {item : Item} {u : TokenStream}
    (hrun : PlainRun sigil run text) (hsigil : rest = sigil :: after)
    (hread : Mark.read sigil after = .directive) {offset : Nat}
    (h : directive ⟨sigil, offset + Text.bytes run, rest⟩ after = (item, u)) :
    items ⟨sigil, offset, run ++ rest⟩ = (plainTokens offset run text).map .ok ++ item :: u.items := by
  have hrest : plainText sigil rest = ([], rest) := by
    rw [hsigil]
    exact plainText_of_directive hread
  have hnext : next ⟨sigil, offset + Text.bytes run, rest⟩ = (some item, u) := by
    subst hsigil
    simp [next, plainText_of_directive hread, advance, h]
  rw [items_of_plainText (hrun.plainText_eq hrest) hrest, items_of_next hnext]

theorem items_of_lexed {offset : Nat} {source : List Char} {items : List Item}
    (h : Lexed sigil offset source items) : TokenStream.items ⟨sigil, offset, source⟩ = items := by
  induction h with
  | @done offset run text skipped hrun hend =>
    have hplain := hrun.plainText_eq hend.plainText_eq
    -- what is skipped at the end of a source counts as part of its last run
    rw [← List.append_nil (run ++ skipped)] at hplain
    have hitems := items_of_plainText hplain (plainText_of_not_mem (by simp)) offset
    rwa [items_nil, List.append_nil, List.append_nil] at hitems
  | @directive offset run text slice content rest items hrun hslice _ ih =>
    obtain ⟨after, hsigil, hread, hstep⟩ := directive_of_run hslice (offset + Text.bytes run) rest
    rw [items_of_directive hrun hsigil hread hstep, ih]
  | @unclosed offset run text slice terminator hrun hslice =>
    obtain ⟨after, hsigil, hread, hstep⟩ := directive_of_open hslice (offset + Text.bytes run)
    rw [items_of_directive hrun hsigil hread hstep, items_nil]

/-- Every source can be cut into plain text, comments and directives. -/
theorem exists_lexed (sigil : Char) (offset : Nat) (source : List Char) :
    ∃ items, Lexed sigil offset source items := by
  induction hn : source.length using Nat.strongRecOn generalizing source offset with
  | _ n ih =>
  subst hn
  obtain ⟨run, text, rest, rfl, hrun, hend | ⟨after, rfl, hread⟩⟩ := exists_plainRun sigil source
  · exact ⟨_, .done hrun hend⟩
  · rcases directive_cases hread with ⟨slice, content, rest, heq, hslice⟩ | ⟨terminator, hslice⟩
    · have hpos := List.length_pos_iff.2 hslice.ne_nil
      rw [heq] at ih ⊢
      have hshorter : rest.length < (run ++ (slice ++ rest)).length := by
        simp only [List.length_append]
        omega
      obtain ⟨items, h⟩ := ih rest.length hshorter (offset + Text.bytes run + Text.bytes slice) rest rfl
      exact ⟨_, .directive hrun hslice h⟩
    · exact ⟨_, .unclosed hrun hslice⟩

theorem lexed_items (t : TokenStream) : Lexed t.sigil t.offset t.rest t.items := by
  obtain ⟨items, h⟩ := exists_lexed t.sigil t.offset t.rest
  rwa [items_of_lexed h]

theorem lexed_start (sigil : Char) (source : String) :
    Lexed sigil 0 source.toList (start sigil source).items :=
  lexed_items (start sigil source)

theorem items_eq_iff {t : TokenStream} {items : List Item} :
    t.items = items ↔ Lexed t.sigil t.offset t.rest items := by
  constructor
  · rintro rfl
    exact lexed_items t
  · exact items_of_lexed

end TokenStream

theorem collect_eq_ok_iff {ε α : Type} {items : List (Except ε α)} {xs : List α} :
    collect items = .ok xs ↔ items = xs.map .ok := by
  induction items generalizing xs with
  | nil => cases xs <;> simp [collect]
  | cons item items ih =>
    cases item with
    | error e => cases xs <;> simp [collect]
    | ok x =>
      cases xs with
      | nil => cases h : collect items <;> simp [collect, h, Except.map]
      | cons y ys =>
        rw [List.map_cons, List.cons.injEq, ← ih]
        cases h : collect items <;> simp [collect, h, Except.map]

theorem collect_eq_error_iff {ε α : Type} {items : List (Except ε α)} {e : ε} :
    collect items = .error e ↔
      ∃ (xs : List α) (rest : List (Except ε α)), items = xs.map .ok ++ .error e :: rest := by
  constructor
  · intro h
    induction items with
    | nil => cases h
    | cons item items ih =>
      cases item with
      | error found =>
        cases h
        exact ⟨[], items, rfl⟩
      | ok x =>
        rw [collect] at h
        cases hrest : collect items with
        | ok xs =>
          rw [hrest] at h
          cases h
        | error found =>
          rw [hrest] at h
          cases h
          obtain ⟨xs, rest, rfl⟩ := ih hrest
          exact ⟨x :: xs, rest, rfl⟩
  · rintro ⟨xs, rest, rfl⟩
    induction xs with
    | nil => rfl
    | cons x xs ih =>
      rw [List.map_cons, List.cons_append, collect, ih]
      rfl

theorem eq_of_map_ok {ε α : Type} {xs ys : List α}
    (h : xs.map (Except.ok : α → Except ε α) = ys.map .ok) : xs = ys :=
  (List.map_inj_right fun _ _ => Except.ok.inj).1 h

theorem map_ok_eq_append_cons {ε α : Type} {us xs : List α} {item : Except ε α}
    {items : List (Except ε α)} (h : us.map .ok = xs.map .ok ++ item :: items) :
    ∃ x more, us = xs ++ x :: more ∧ item = .ok x ∧ items = more.map .ok := by
  obtain ⟨first, later, rfl, hfirst, hlater⟩ := List.map_eq_append_iff.1 h
  obtain ⟨x, more, rfl, hx, hmore⟩ := List.map_eq_cons_iff.1 hlater
  exact ⟨x, more, by rw [eq_of_map_ok hfirst], hx.symm, hmore.symm⟩

namespace Token

theorem ofSource_eq_ok_iff {sigil : Char} {source : String} {ts : List (Spanned Token)} :
    ofSource sigil source = .ok ts ↔ Lexed sigil 0 source.toList (ts.map .ok) := by
  rw [ofSource, collect_eq_ok_iff, TokenStream.items_eq_iff]
  rfl

end Token

end Stencil
