import Stencil.Proofs.Tiling

namespace Stencil

namespace Text

/-- The byte at which a character stands first. -/
def find? (c : Char) : List Char → Option Nat
  | [] => none
  | d :: text => if d = c then some 0 else (find? c text).map (d.utf8Size + ·)

/-- The text up to a byte, if that is between characters and not beyond the end. -/
def take? (n : Nat) (text : List Char) : Option (List Char) := (splitBytes? n text).map Prod.fst

/-- The text from a byte on, if that is between characters and not beyond the end. -/
def drop? (n : Nat) (text : List Char) : Option (List Char) := (splitBytes? n text).map Prod.snd

theorem find?_append {c : Char} {before : List Char} (h : c ∉ before) (after : List Char) :
    find? c (before ++ c :: after) = some (bytes before) := by
  induction before with
  | nil => simp [find?]
  | cons d before ih =>
    obtain ⟨hd, hbefore⟩ : c ≠ d ∧ c ∉ before := by simpa using h
    simp [find?, Ne.symm hd, ih hbefore]

theorem find?_of_not_mem {c : Char} {text : List Char} (h : c ∉ text) : find? c text = none := by
  induction text with
  | nil => rfl
  | cons d text ih =>
    obtain ⟨hd, htext⟩ : c ≠ d ∧ c ∉ text := by simpa using h
    simp [find?, Ne.symm hd, ih htext]

theorem take?_append (before after : List Char) : take? (bytes before) (before ++ after) = some before := by
  rw [take?, splitBytes?_append]
  rfl

theorem drop?_append (before after : List Char) : drop? (bytes before) (before ++ after) = some after := by
  rw [drop?, splitBytes?_append]
  rfl

end Text

namespace Mark

theorem eq_of_read_escape {sigil : Char} {after rest : List Char} (h : read sigil after = .escape rest) :
    after = sigil :: rest := by
  rcases read_cases sigil after with ⟨others, rfl⟩ | ⟨hs, body, rfl⟩ | hdirective
  · rw [read_escape] at h
    cases h
    rfl
  · rw [read_comment hs] at h
    cases h
  · rw [hdirective] at h
    cases h

theorem eq_of_read_comment {sigil : Char} {after rest : List Char}
    (h : read sigil after = .comment rest) :
    sigil ≠ '-' ∧ ∃ body, after = '-' :: '-' :: body ∧ rest = (body.dropWhile (· != '\n')).drop 1 := by
  rcases read_cases sigil after with ⟨others, rfl⟩ | ⟨hs, body, rfl⟩ | hdirective
  · rw [read_escape] at h
    cases h
  · rw [read_comment hs] at h
    cases h
    exact ⟨hs, body, rfl, rfl⟩
  · rw [hdirective] at h
    cases h

end Mark

/-- A source that is read by byte offsets. Nothing is known of the offset: text is cut out of the
    source at it, and each cut may fail. -/
structure Cursor where
  sigil : Char
  source : List Char
  offset : Nat

namespace Cursor

open TokenStream (Item)

def moveTo (c : Cursor) (offset : Nat) : Cursor := { c with offset := offset }

def atEnd (c : Cursor) : Bool := decide (Text.bytes c.source ≤ c.offset)

/-- Going `n` bytes on moves the cursor, and does not take it out of the source. -/
def Ahead (c : Cursor) (n : Nat) : Prop := 0 < n ∧ c.offset + n ≤ Text.bytes c.source

instance (c : Cursor) (n : Nat) : Decidable (c.Ahead n) := inferInstanceAs (Decidable (_ ∧ _))

/-- Scans plain text behind `text`. There is no answer if a cut fails, nor if the scan would not move
    on or leave the source. -/
def plain? (c : Cursor) (text : List Char) : Option (List Char × Cursor) := do
  let rest ← Text.drop? c.offset c.source
  match Text.find? c.sigil rest with
  | none => some (text ++ rest, c.moveTo (Text.bytes c.source))
  | some n =>
    let before ← Text.take? n rest
    let after ← Text.drop? (n + c.sigil.utf8Size) rest
    if after.head? = some c.sigil then
      let move := n + 2 * c.sigil.utf8Size
      if _h : c.Ahead move then plain? (c.moveTo (c.offset + move)) (text ++ before ++ [c.sigil]) else none
    else match after with
      | '-' :: '-' :: comment =>
        -- the end of its line belongs to a comment
        let skipped := ((Text.find? '\n' comment).map (· + 1)).getD (Text.bytes comment)
        let move := n + c.sigil.utf8Size + Text.bytes ['-', '-'] + skipped
        if _h : c.Ahead move then plain? (c.moveTo (c.offset + move)) (text ++ before) else none
      | _ => some (text ++ before, c.moveTo (c.offset + n))
termination_by Text.bytes c.source - c.offset
decreasing_by
  all_goals
    obtain ⟨hmoves, hinside⟩ := _h
    simp only [moveTo]
    omega

/-- Reads a directive, taking it that its opening sigil is at the cursor. -/
def directive? (c : Cursor) : Option (Item × Cursor) := do
  let rest ← Text.drop? c.offset c.source
  let after ← Text.drop? c.sigil.utf8Size rest
  let form := Directive.Form.read c.sigil after
  match Text.find? form.terminator form.body with
  | none =>
    let stop := Text.bytes c.source
    some (.error ⟨.unterminatedDirective form.terminator, ⟨c.offset, stop⟩⟩, c.moveTo stop)
  | some n =>
    let content ← Text.take? n form.body
    let content := if form.raw then content else Text.trim content
    let stop := c.offset + ((Text.bytes rest - Text.bytes form.body) + n + form.terminator.utf8Size)
    some (.ok ⟨.directive (String.ofList content), ⟨c.offset, stop⟩⟩, c.moveTo stop)

def next? (c : Cursor) : Option (Option Item × Cursor) := do
  if c.atEnd then
    return (none, c)
  let (text, d) ← c.plain? []
  if text ≠ [] then
    return (some (.ok ⟨.plain (String.ofList text), ⟨c.offset, d.offset⟩⟩), d)
  if d.atEnd then
    return (none, d)
  let (item, e) ← d.directive?
  return (some item, e)

variable {sigil : Char}

/-- A comment's body: the line, and the newline if there is one. -/
theorem exists_comment (body : List Char) :
    ∃ taken, body = taken ++ (body.dropWhile (· != '\n')).drop 1 ∧
      ((Text.find? '\n' body).map (· + 1)).getD (Text.bytes body) = Text.bytes taken := by
  by_cases h : '\n' ∈ body
  · obtain ⟨line, rest, rfl, hline⟩ := List.eq_append_cons_of_mem h
    refine ⟨line ++ ['\n'], ?_, ?_⟩
    · rw [Mark.dropWhile_line hline]
      simp
    · rw [Text.find?_append hline, Text.bytes_append line ['\n']]
      rfl
  · have hnone := Mark.dropWhile_line h []
    rw [List.append_nil] at hnone
    refine ⟨body, ?_, ?_⟩
    · rw [hnone]
      simp
    · rw [Text.find?_of_not_mem h]
      rfl

section Scan

variable {before text found after : List Char}

theorem plain?_of_not_mem {source : List Char} (h : sigil ∉ source) :
    plain? ⟨sigil, before ++ source, Text.bytes before⟩ text =
      some (text ++ source, ⟨sigil, before ++ source, Text.bytes (before ++ source)⟩) := by
  rw [plain?]
  simp only [Text.drop?_append, Option.bind_eq_bind, Option.bind_some, Text.find?_of_not_mem h]
  rfl

/-- Both cuts at the first sigil are between characters. -/
theorem plain?_of_sigil (h : sigil ∉ found) :
    plain? ⟨sigil, before ++ (found ++ sigil :: after), Text.bytes before⟩ text =
      let c : Cursor := ⟨sigil, before ++ (found ++ sigil :: after), Text.bytes before⟩
      if after.head? = some sigil then
        let move := Text.bytes found + 2 * sigil.utf8Size
        if c.Ahead move then plain? (c.moveTo (c.offset + move)) (text ++ found ++ [sigil]) else none
      else match after with
        | '-' :: '-' :: comment =>
          let skipped := ((Text.find? '\n' comment).map (· + 1)).getD (Text.bytes comment)
          let move := Text.bytes found + sigil.utf8Size + Text.bytes ['-', '-'] + skipped
          if c.Ahead move then plain? (c.moveTo (c.offset + move)) (text ++ found) else none
        | _ => some (text ++ found, c.moveTo (c.offset + Text.bytes found)) := by
  have hafter : Text.drop? (Text.bytes found + sigil.utf8Size) (found ++ sigil :: after) = some after := by
    have hdrop := Text.drop?_append (found ++ [sigil]) after
    simpa using hdrop
  rw [plain?]
  simp only [Text.drop?_append, Option.bind_eq_bind, Option.bind_some, Text.find?_append h,
    Text.take?_append, hafter, dite_eq_ite]

/-- Text that is not empty takes the cursor on. -/
theorem plain?_moveTo {more : List Char} (h : more ≠ []) (rest : List Char) :
    let c : Cursor := ⟨sigil, before ++ (more ++ rest), Text.bytes before⟩
    (if c.Ahead (Text.bytes more) then plain? (c.moveTo (c.offset + Text.bytes more)) text else none) =
      plain? ⟨sigil, before ++ more ++ rest, Text.bytes (before ++ more)⟩ text := by
  intro c
  have hahead : c.Ahead (Text.bytes more) := by
    refine ⟨Text.bytes_pos h, ?_⟩
    simp only [c, Text.bytes_append]
    omega
  rw [if_pos hahead, moveTo, List.append_assoc, Text.bytes_append]

theorem plain?_of_escape (h : sigil ∉ found) (rest : List Char) :
    plain? ⟨sigil, before ++ (found ++ sigil :: sigil :: rest), Text.bytes before⟩ text =
      plain? ⟨sigil, before ++ (found ++ [sigil, sigil]) ++ rest,
        Text.bytes (before ++ (found ++ [sigil, sigil]))⟩ (text ++ found ++ [sigil]) := by
  have hsource : found ++ sigil :: sigil :: rest = (found ++ [sigil, sigil]) ++ rest := by simp
  have hmove : Text.bytes found + 2 * sigil.utf8Size = Text.bytes (found ++ [sigil, sigil]) := by
    simp [Nat.two_mul]
  rw [plain?_of_sigil h, List.head?_cons, if_pos rfl, hmove, hsource]
  exact plain?_moveTo (by simp) rest

theorem plain?_of_comment (h : sigil ∉ found) (hs : sigil ≠ '-') {body taken rest : List Char}
    (hbody : body = taken ++ rest)
    (htaken : ((Text.find? '\n' body).map (· + 1)).getD (Text.bytes body) = Text.bytes taken) :
    plain? ⟨sigil, before ++ (found ++ commentText sigil body), Text.bytes before⟩ text =
      plain? ⟨sigil, before ++ (found ++ commentText sigil taken) ++ rest,
        Text.bytes (before ++ (found ++ commentText sigil taken))⟩ (text ++ found) := by
  have hhead : ('-' :: '-' :: body).head? ≠ some sigil := by simpa using Ne.symm hs
  have hsource : found ++ sigil :: '-' :: '-' :: body = (found ++ commentText sigil taken) ++ rest := by
    simp [commentText, hbody]
  have hmove : Text.bytes found + sigil.utf8Size + Text.bytes ['-', '-'] + Text.bytes taken =
      Text.bytes (found ++ commentText sigil taken) := by
    simp [commentText, Nat.add_assoc]
  rw [commentText, plain?_of_sigil h, if_neg hhead]
  simp only [htaken, hmove, hsource]
  exact plain?_moveTo (by simp [commentText]) rest

theorem plain?_of_directive (h : sigil ∉ found) (hread : Mark.read sigil after = .directive) :
    plain? ⟨sigil, before ++ (found ++ sigil :: after), Text.bytes before⟩ text =
      some (text ++ found, ⟨sigil, before ++ (found ++ sigil :: after), Text.bytes (before ++ found)⟩) := by
  obtain ⟨hescape, hcomment⟩ := Mark.read_eq_directive_iff.1 hread
  rw [plain?_of_sigil h, if_neg hescape]
  split
  · exact absurd ⟨_, rfl⟩ hcomment
  · simp [moveTo]

/-- From an offset between characters the scan gets to where the plain text ends. -/
theorem plain?_eq (sigil : Char) (before text source : List Char) :
    ∃ taken, source = taken ++ (plainText sigil source).2 ∧
      plain? ⟨sigil, before ++ source, Text.bytes before⟩ text =
        some (text ++ (plainText sigil source).1,
          ⟨sigil, before ++ source, Text.bytes (before ++ taken)⟩) := by
  fun_induction plainText sigil source generalizing before text with
  | case1 source h => exact ⟨source, by simp, plain?_of_not_mem (Text.cut?_eq_none_iff.1 h)⟩
  | case2 source found after h rest hm more left hp ih =>
    obtain ⟨rfl, hfound⟩ := Text.cut?_eq_some_iff.1 h
    obtain rfl : after = sigil :: rest := Mark.eq_of_read_escape hm
    obtain ⟨taken, hrest, hplain⟩ := ih (before ++ (found ++ [sigil, sigil])) (text ++ found ++ [sigil])
    rw [hp] at hrest hplain
    refine ⟨found ++ sigil :: sigil :: taken, by simp [hrest], ?_⟩
    rw [plain?_of_escape hfound, hplain]
    simp
  | case3 source found after h rest hm more left hp ih =>
    obtain ⟨rfl, hfound⟩ := Text.cut?_eq_some_iff.1 h
    obtain ⟨hs, body, rfl, heq⟩ := Mark.eq_of_read_comment hm
    obtain ⟨line, hbody, hline⟩ := exists_comment body
    rw [← heq] at hbody
    obtain ⟨taken, hrest, hplain⟩ := ih (before ++ (found ++ commentText sigil line)) (text ++ found)
    rw [hp] at hrest hplain
    have hcomment : commentText sigil body = commentText sigil line ++ rest := by
      rw [hbody]
      rfl
    rw [← commentText]
    refine ⟨found ++ (commentText sigil line ++ taken), ?_, ?_⟩
    · simp [hcomment, hrest]
    · rw [plain?_of_comment hfound hs hbody hline, hplain]
      simp [hcomment]
  | case4 source found after h hm =>
    obtain ⟨rfl, hfound⟩ := Text.cut?_eq_some_iff.1 h
    exact ⟨found, rfl, plain?_of_directive hfound hm⟩

end Scan

theorem form_body (sigil : Char) (after : List Char) :
    ∃ opening, after = opening ++ (Directive.Form.read sigil after).body := by
  unfold Directive.Form.read
  split
  · exact ⟨['{'], rfl⟩
  · exact ⟨[], rfl⟩

section Directive

variable {before after opening content rest : List Char} {form : Directive.Form}

theorem drop?_sigil (sigil : Char) (after : List Char) :
    Text.drop? sigil.utf8Size (sigil :: after) = some after := by
  have hone := Text.drop?_append [sigil] after
  simpa using hone

theorem directive?_of_unclosed (hform : Directive.Form.read sigil after = form)
    (h : form.terminator ∉ form.body) :
    let source := before ++ sigil :: after
    directive? ⟨sigil, source, Text.bytes before⟩ =
      some (.error ⟨.unterminatedDirective form.terminator, ⟨Text.bytes before, Text.bytes source⟩⟩,
        ⟨sigil, source, Text.bytes source⟩) := by
  intro source
  rw [directive?]
  simp only [source, Text.drop?_append, Option.bind_eq_bind, Option.bind_some, drop?_sigil, hform,
    Text.find?_of_not_mem h]
  rfl

theorem directive?_of_closed (hform : Directive.Form.read sigil after = form)
    (hafter : after = opening ++ form.body) (hbody : form.body = content ++ form.terminator :: rest)
    (h : form.terminator ∉ content) :
    let taken := sigil :: opening ++ (content ++ [form.terminator])
    directive? ⟨sigil, before ++ sigil :: after, Text.bytes before⟩ =
      some (.ok ⟨.directive (String.ofList (if form.raw then content else Text.trim content)),
          ⟨Text.bytes before, Text.bytes (before ++ taken)⟩⟩,
        ⟨sigil, before ++ sigil :: after, Text.bytes (before ++ taken)⟩) := by
  intro taken
  have hfind : Text.find? form.terminator form.body = some (Text.bytes content) := by
    rw [hbody, Text.find?_append h]
  have htake : Text.take? (Text.bytes content) form.body = some content := by
    rw [hbody, Text.take?_append]
  have hstop : Text.bytes before + ((Text.bytes (sigil :: after) - Text.bytes form.body) +
      Text.bytes content + form.terminator.utf8Size) = Text.bytes (before ++ taken) := by
    rw [hafter, ← List.cons_append, Text.bytes_append, Nat.add_sub_cancel]
    simp [taken, Nat.add_assoc]
  rw [directive?]
  simp only [Text.drop?_append, Option.bind_eq_bind, Option.bind_some, drop?_sigil, hform, hfind, htake,
    hstop]
  rfl

/-- With the cursor on a sigil, the cuts for a directive are between characters. -/
theorem directive?_eq (sigil : Char) (before after : List Char) :
    let t : TokenStream := ⟨sigil, Text.bytes before, sigil :: after⟩
    ∃ taken, sigil :: after = taken ++ (t.directive after).2.rest ∧
      (t.directive after).2 = ⟨sigil, Text.bytes (before ++ taken), (t.directive after).2.rest⟩ ∧
      directive? ⟨sigil, before ++ sigil :: after, Text.bytes before⟩ =
        some ((t.directive after).1, ⟨sigil, before ++ sigil :: after, Text.bytes (before ++ taken)⟩) := by
  intro t
  obtain ⟨opening, hafter⟩ := form_body sigil after
  generalize hform : Directive.Form.read sigil after = form at hafter
  have hadvance {taken rest : List Char} (h : sigil :: after = taken ++ rest) :
      t.advance rest = ⟨sigil, Text.bytes (before ++ taken), rest⟩ := by
    rw [Text.bytes_append, ← TokenStream.advance_append, ← h]
  cases hcut : Text.cut? form.terminator form.body with
  | none =>
    have hstep : t.directive after = (.error ⟨.unterminatedDirective form.terminator,
        t.spanTo (t.advance [])⟩, t.advance []) := by
      simp only [TokenStream.directive, t, hform, hcut]
    have hall : sigil :: after = (sigil :: after) ++ [] := (List.append_nil _).symm
    rw [hstep, hadvance hall]
    exact ⟨sigil :: after, hall, rfl, directive?_of_unclosed hform (Text.cut?_eq_none_iff.1 hcut)⟩
  | some parts =>
    obtain ⟨content, rest⟩ := parts
    obtain ⟨hbody, hcontent⟩ := Text.cut?_eq_some_iff.1 hcut
    have hstep : t.directive after = (.ok ⟨.directive (String.ofList
        (if form.raw then content else Text.trim content)), t.spanTo (t.advance rest)⟩,
        t.advance rest) := by
      simp only [TokenStream.directive, t, hform, hcut]
    have hall : sigil :: after = (sigil :: opening ++ (content ++ [form.terminator])) ++ rest := by
      simp [hafter, hbody]
    rw [hstep, hadvance hall]
    exact ⟨_, hall, rfl, directive?_of_closed hform hafter hbody hcontent⟩

end Directive

/-- A scan stops at the end or on a sigil. -/
theorem plainText_left (sigil : Char) (source : List Char) :
    (plainText sigil source).2 = [] ∨ ∃ after, (plainText sigil source).2 = sigil :: after := by
  obtain ⟨run, text, rest, rfl, hrun, hend | ⟨after, rfl, hread⟩⟩ := exists_plainRun sigil source
  · left
    rw [hrun.plainText_eq hend.plainText_eq]
  · right
    exact ⟨after, by rw [hrun.plainText_eq (plainText_of_directive hread)]⟩

theorem atEnd_append (before source : List Char) :
    (⟨sigil, before ++ source, Text.bytes before⟩ : Cursor).atEnd = source.isEmpty := by
  have hbytes := Text.length_le_bytes source
  cases source with
  | nil => simp [atEnd]
  | cons c source =>
    simp only [List.length_cons] at hbytes
    simp only [atEnd, Text.bytes_append, List.isEmpty_cons, decide_eq_false_iff_not]
    omega

section Next

variable {c d e : Cursor} {text : List Char} {item : Item}

theorem next?_of_text (hstart : c.atEnd = false) (hplain : c.plain? [] = some (text, d))
    (hne : text ≠ []) :
    c.next? = some (some (.ok ⟨.plain (String.ofList text), ⟨c.offset, d.offset⟩⟩), d) := by
  simp [next?, hstart, hplain, hne]

theorem next?_of_end (hstart : c.atEnd = false) (hplain : c.plain? [] = some ([], d))
    (hend : d.atEnd = true) : c.next? = some (none, d) := by
  simp [next?, hstart, hplain, hend]

theorem next?_of_directive (hstart : c.atEnd = false) (hplain : c.plain? [] = some ([], d))
    (hend : d.atEnd = false) (hdirective : d.directive? = some (item, e)) :
    c.next? = some (some item, e) := by
  simp [next?, hstart, hplain, hend, hdirective]

end Next

/-- From an offset between characters a call is answered as the stream answers it, and leaves the
    cursor where the stream goes on, between characters again. -/
theorem next?_eq (sigil : Char) (before source : List Char) :
    let t : TokenStream := ⟨sigil, Text.bytes before, source⟩
    ∃ taken, source = taken ++ t.next.2.rest ∧
      t.next.2 = ⟨sigil, Text.bytes (before ++ taken), t.next.2.rest⟩ ∧
      next? ⟨sigil, before ++ source, Text.bytes before⟩ =
        some (t.next.1, ⟨sigil, before ++ source, Text.bytes (before ++ taken)⟩) := by
  intro t
  by_cases hempty : source = []
  · subst hempty
    have hstep : t.next = (none, t.advance []) := TokenStream.next_of_end (plainText_of_not_mem (by simp [t]))
    rw [hstep]
    exact ⟨[], rfl, by simp [t, TokenStream.advance], by simp [next?, atEnd]⟩
  obtain ⟨taken, hsource, hplain⟩ := plain?_eq sigil before [] source
  have hleft := plainText_left sigil source
  generalize hscan : plainText sigil source = parts at hsource hplain hleft
  obtain ⟨text, left⟩ := parts
  simp only [List.nil_append] at hsource hplain hleft
  have hadvance : t.advance left = ⟨sigil, Text.bytes (before ++ taken), left⟩ := by
    rw [Text.bytes_append, ← TokenStream.advance_append, ← hsource]
  have hstart : (⟨sigil, before ++ source, Text.bytes before⟩ : Cursor).atEnd = false := by
    rw [atEnd_append]
    simpa using hempty
  have hall : before ++ source = before ++ taken ++ left := by
    rw [hsource, List.append_assoc]
  have hstop : (⟨sigil, before ++ source, Text.bytes (before ++ taken)⟩ : Cursor).atEnd =
      left.isEmpty := by
    rw [hall, atEnd_append]
  by_cases hne : text = []
  · subst hne
    rcases hleft with rfl | ⟨after, rfl⟩
    · rw [TokenStream.next_of_end (t := t) hscan, hadvance]
      exact ⟨taken, hsource, rfl, next?_of_end hstart hplain hstop⟩
    · obtain ⟨more, hmore, hrest, hdirective⟩ :=
        directive?_eq sigil (before ++ taken) after
      rw [TokenStream.next_of_directive (t := t) hscan, hadvance]
      rw [← hall] at hdirective
      refine ⟨taken ++ more, ?_, ?_, ?_⟩
      · rw [List.append_assoc, ← hmore, hsource]
      · rw [← List.append_assoc, ← hrest]
      · rw [← List.append_assoc]
        exact next?_of_directive hstart hplain hstop hdirective
  · rw [TokenStream.next_of_text (t := t) hscan hne, hadvance]
    exact ⟨taken, hsource, rfl, next?_of_text hstart hplain hne⟩

end Cursor
end Stencil
