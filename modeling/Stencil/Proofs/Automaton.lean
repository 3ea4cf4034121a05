import Stencil.Proofs.Lexemes

namespace Stencil

/-- What the next character of a source is taken for. -/
inductive Mode where
  | plain
  /-- After a sigil in plain text: the next character decides what it stands for. -/
  | sigil (opened : Nat)
  /-- After a sigil and a dash: a second dash makes them a comment. -/
  | dash (opened : Nat)
  | comment
  | bare (opened : Nat) (content : List Char)
  | curly (opened : Nat) (content : List Char)

/-- Reads a source one character at a time. -/
structure Automaton where
  mode : Mode
  /-- Items that are complete. -/
  items : List TokenStream.Item
  /-- Where the plain run starts, and what it has come to. -/
  start : Nat
  text : List Char
  offset : Nat

namespace Automaton

def init : Automaton := ⟨.plain, [], 0, [], 0⟩

/-- The items with the plain run up to `stop`, unless that is empty. -/
def flush (a : Automaton) (stop : Nat) : List TokenStream.Item :=
  if a.text = [] then a.items
  else a.items ++ [.ok ⟨.plain (String.ofList a.text), ⟨a.start, stop⟩⟩]

def enter (a : Automaton) (opened : Nat) (mode : Mode) (offset : Nat) : Automaton :=
  ⟨mode, a.flush opened, a.start, [], offset⟩

def close (a : Automaton) (opened : Nat) (content : List Char) (offset : Nat) : Automaton :=
  ⟨.plain, a.items ++ [.ok ⟨.directive (String.ofList content), ⟨opened, offset⟩⟩], offset, [], offset⟩

def step (sigil : Char) (a : Automaton) (c : Char) : Automaton :=
  let offset := a.offset + c.utf8Size
  match a.mode with
  | .plain =>
    if c = sigil then { a with mode := .sigil a.offset, offset := offset }
    else { a with text := a.text ++ [c], offset := offset }
  | .sigil opened =>
    if c = sigil then { a with mode := .plain, text := a.text ++ [sigil], offset := offset }
    else if c = '-' then { a with mode := .dash opened, offset := offset }
    else if c = '{' then a.enter opened (.curly opened []) offset
    else a.enter opened (.bare opened [c]) offset
  | .dash opened =>
    if c = '-' then { a with mode := .comment, offset := offset }
    else if c = sigil then
      (a.enter opened (.bare opened ['-']) a.offset).close opened (Text.trim ['-']) offset
    else a.enter opened (.bare opened ['-', c]) offset
  | .comment =>
    if c = '\n' then { a with mode := .plain, offset := offset } else { a with offset := offset }
  | .bare opened content =>
    if c = sigil then a.close opened (Text.trim content) offset
    else { a with mode := .bare opened (content ++ [c]), offset := offset }
  | .curly opened content =>
    if c = '}' then a.close opened content offset
    else { a with mode := .curly opened (content ++ [c]), offset := offset }

def unclosed (a : Automaton) (opened : Nat) (terminator : Char) : TokenStream.Item :=
  .error ⟨.unterminatedDirective terminator, ⟨opened, a.offset⟩⟩

/-- The items when the source is at its end. -/
def finish (sigil : Char) (a : Automaton) : List TokenStream.Item :=
  match a.mode with
  | .plain => a.flush a.offset
  | .comment => a.flush a.offset
  | .sigil opened => a.flush opened ++ [a.unclosed opened sigil]
  | .dash opened => a.flush opened ++ [a.unclosed opened sigil]
  | .bare opened _ => a.items ++ [a.unclosed opened sigil]
  | .curly opened _ => a.items ++ [a.unclosed opened '}']

def run (sigil : Char) (a : Automaton) (source : List Char) : Automaton := source.foldl (step sigil) a

/-- The items of a whole source. -/
def scan (sigil : Char) (source : List Char) : List TokenStream.Item := (init.run sigil source).finish sigil

section Run

variable {sigil : Char}

@[simp] theorem run_nil (a : Automaton) : a.run sigil [] = a := rfl

@[simp] theorem run_cons (a : Automaton) (c : Char) (source : List Char) :
    a.run sigil (c :: source) = (a.step sigil c).run sigil source := rfl

@[simp] theorem run_append (a : Automaton) (source rest : List Char) :
    a.run sigil (source ++ rest) = (a.run sigil source).run sigil rest :=
  List.foldl_append

variable {items : List TokenStream.Item} {start : Nat} {text : List Char} {offset : Nat}

theorem flush_eq (mode : Mode) (slice : List Char) :
    flush ⟨mode, items, start, text, offset⟩ (start + Text.bytes slice) =
      items ++ (plainTokens start slice text).map .ok := by
  unfold flush plainTokens
  split <;> simp_all

/-- Characters that a mode only collects. -/
theorem run_collect {more : List Char} (mode : List Char → Mode)
    (hstep : ∀ c ∈ more, ∀ content offset, step sigil ⟨mode content, items, start, text, offset⟩ c =
      ⟨mode (content ++ [c]), items, start, text, offset + c.utf8Size⟩) (content : List Char) :
    run sigil ⟨mode content, items, start, text, offset⟩ more =
      ⟨mode (content ++ more), items, start, text, offset + Text.bytes more⟩ := by
  induction more generalizing content offset with
  | nil => simp
  | cons c more ih =>
    rw [run_cons, hstep c List.mem_cons_self, ih fun d hd => hstep d (List.mem_cons_of_mem _ hd)]
    simp [Nat.add_assoc]

theorem run_comment {body : List Char} (hb : '\n' ∉ body) :
    run sigil ⟨.comment, items, start, text, offset⟩ body =
      ⟨.comment, items, start, text, offset + Text.bytes body⟩ := by
  refine run_collect (fun _ => .comment) ?_ []
  intro c hc content offset
  simp [step, ne_of_mem_of_not_mem hc hb]

theorem run_bare {more : List Char} (hs : sigil ∉ more) (opened : Nat) (content : List Char) :
    run sigil ⟨.bare opened content, items, start, text, offset⟩ more =
      ⟨.bare opened (content ++ more), items, start, text, offset + Text.bytes more⟩ := by
  refine run_collect (.bare opened) ?_ content
  intro c hc content offset
  simp [step, ne_of_mem_of_not_mem hc hs]

theorem run_curly {more : List Char} (hclose : '}' ∉ more) (opened : Nat) (content : List Char) :
    run sigil ⟨.curly opened content, items, start, text, offset⟩ more =
      ⟨.curly opened (content ++ more), items, start, text, offset + Text.bytes more⟩ := by
  refine run_collect (.curly opened) ?_ content
  intro c hc content offset
  simp [step, ne_of_mem_of_not_mem hc hclose]

theorem step_sigil : step sigil ⟨.plain, items, start, text, offset⟩ sigil =
    ⟨.sigil offset, items, start, text, offset + sigil.utf8Size⟩ := by
  simp [step]

theorem run_commentStart (hs : sigil ≠ '-') :
    run sigil ⟨.plain, items, start, text, offset⟩ [sigil, '-', '-'] =
      ⟨.comment, items, start, text, offset + Text.bytes [sigil, '-', '-']⟩ := by
  simp [step, Ne.symm hs, Nat.add_assoc]

theorem run_curlyStart (hs : sigil ≠ '{') :
    let a : Automaton := ⟨.plain, items, start, text, offset⟩
    a.run sigil [sigil, '{'] = a.enter offset (.curly offset []) (offset + Text.bytes [sigil, '{']) := by
  simp [step, Ne.symm hs, enter, flush, Nat.add_assoc]

/-- A bare directive whose first character is a dash is not known for one before its second. -/
theorem run_bareStart {body : List Char} (hne : body ≠ []) (hb : BareStart body) (hs : sigil ∉ body)
    (opened : Nat) :
    let a : Automaton := ⟨.sigil opened, items, start, text, offset⟩
    body = ['-'] ∧ a.run sigil body = ⟨.dash opened, items, start, text, offset + Text.bytes body⟩ ∨
      a.run sigil body = a.enter opened (.bare opened body) (offset + Text.bytes body) := by
  intro a
  cases body with
  | nil => exact absurd rfl hne
  | cons c more =>
    obtain ⟨hc, hmore⟩ : sigil ≠ c ∧ sigil ∉ more := by simpa using hs
    have hbracket : c ≠ '{' := by simpa using hb.1
    -- any first character but a dash settles it
    by_cases hdash : c = '-'
    · subst hdash
      have hfirst : a.step sigil '-' = ⟨.dash opened, items, start, text, offset + '-'.utf8Size⟩ := by
        simp [a, step, Ne.symm hc]
      cases more with
      | nil => exact .inl ⟨rfl, by simpa using hfirst⟩
      | cons d more =>
        obtain ⟨hd, hmore⟩ : sigil ≠ d ∧ sigil ∉ more := by simpa using hmore
        have hsecond : d ≠ '-' := by
          rintro rfl
          exact hb.2 ⟨more, rfl⟩
        right
        rw [run_cons, hfirst, run_cons]
        simp only [step, hsecond, Ne.symm hd, if_false, enter, flush]
        rw [run_bare hmore]
        simp [Nat.add_assoc, a]
    · have hfirst : a.step sigil c = a.enter opened (.bare opened [c]) (offset + c.utf8Size) := by
        simp [a, step, Ne.symm hc, hdash, hbracket]
      right
      rw [run_cons, hfirst, enter, run_bare hmore]
      simp [enter, Nat.add_assoc]

theorem run_plainRun {run more : List Char} (h : PlainRun sigil run more) :
    Automaton.run sigil ⟨.plain, items, start, text, offset⟩ run =
      ⟨.plain, items, start, text ++ more, offset + Text.bytes run⟩ := by
  induction h generalizing text offset with
  | nil => simp
  | @char c run more hc _ ih =>
    have hstep : step sigil ⟨.plain, items, start, text, offset⟩ c =
        ⟨.plain, items, start, text ++ [c], offset + c.utf8Size⟩ := by
      simp [step, hc]
    rw [run_cons, hstep, ih]
    simp [Nat.add_assoc]
  | @escape run more _ ih =>
    have hpair : Automaton.run sigil ⟨.plain, items, start, text, offset⟩ [sigil, sigil] =
        ⟨.plain, items, start, text ++ [sigil], offset + Text.bytes [sigil, sigil]⟩ := by
      simp [step, Nat.add_assoc]
    change Automaton.run sigil _ ([sigil, sigil] ++ run) = _
    rw [run_append, hpair, ih]
    simp [Nat.add_assoc]
  | @comment body run more hs hb _ ih =>
    have hend (stop : Nat) : Automaton.run sigil ⟨.comment, items, start, text, stop⟩ ['\n'] =
        ⟨.plain, items, start, text, stop + Text.bytes ['\n']⟩ := by
      simp [step]
    change Automaton.run sigil _ ([sigil, '-', '-'] ++ (body ++ (['\n'] ++ run))) = _
    rw [run_append, run_commentStart hs, run_append, run_comment hb, run_append, hend, ih]
    simp [commentText, Nat.add_assoc]

theorem run_directiveRun {slice content : List Char} (h : DirectiveRun sigil slice content) :
    let a : Automaton := ⟨.plain, items, start, text, offset⟩
    a.run sigil slice =
      (a.enter offset .plain offset).close offset content (offset + Text.bytes slice) := by
  intro a
  cases h with
  | curly hs hc =>
    change a.run sigil ([sigil, '{'] ++ (content ++ ['}'])) = _
    rw [run_append, run_curlyStart hs, run_append, enter, run_curly hc]
    simp [step, close, enter, flush, a, Nat.add_assoc]
  | @bare body hne hb hs =>
    rw [run_cons, run_append, step_sigil]
    rcases @run_bareStart sigil items start text (offset + sigil.utf8Size) body hne hb hs offset with
      ⟨rfl, hdash⟩ | hbare
    · have hne : sigil ≠ '-' := by simpa using hs
      rw [hdash]
      simp [step, close, enter, flush, hne, a, Nat.add_assoc]
    · rw [hbare]
      simp [step, close, enter, flush, a, Nat.add_assoc]

theorem finish_openDirective {slice : List Char} {terminator : Char}
    (h : OpenDirective sigil slice terminator) :
    let a : Automaton := ⟨.plain, items, start, text, offset⟩
    (a.run sigil slice).finish sigil = a.flush offset ++
      [.error ⟨.unterminatedDirective terminator, ⟨offset, offset + Text.bytes slice⟩⟩] := by
  intro a
  cases h with
  | @curly body hs hb =>
    change (a.run sigil ([sigil, '{'] ++ body)).finish sigil = _
    rw [run_append, run_curlyStart hs, enter, run_curly hb]
    simp [finish, unclosed, a, Nat.add_assoc]
  | @bare body hb hs =>
    rw [run_cons, step_sigil]
    by_cases hne : body = []
    · subst hne
      rfl
    · rcases @run_bareStart sigil items start text (offset + sigil.utf8Size) body hne hb hs offset with
        ⟨-, hdash⟩ | hbare
      · rw [hdash]
        simp [finish, unclosed, flush, a, Nat.add_assoc]
      · rw [hbare]
        simp [finish, unclosed, enter, flush, a, Nat.add_assoc]

theorem finish_plainEnd {skipped : List Char} (h : PlainEnd sigil skipped) :
    let a : Automaton := ⟨.plain, items, start, text, offset⟩
    (a.run sigil skipped).finish sigil = a.flush (offset + Text.bytes skipped) := by
  intro a
  cases h with
  | done => rfl
  | @comment body hs hb =>
    change (a.run sigil ([sigil, '-', '-'] ++ body)).finish sigil = _
    rw [run_append, run_commentStart hs, run_comment hb]
    simp [finish, flush, a, commentText, Nat.add_assoc]

/-- After a directive nothing is pending, so the automaton goes on as from the start. -/
theorem finish_lexed {offset : Nat} {source : List Char} {more : List TokenStream.Item}
    (h : Lexed sigil offset source more) (items : List TokenStream.Item) :
    (run sigil ⟨.plain, items, offset, [], offset⟩ source).finish sigil = items ++ more := by
  induction h generalizing items with
  | @done offset run text skipped hrun hend =>
    rw [run_append, run_plainRun hrun, finish_plainEnd hend, Nat.add_assoc, ← Text.bytes_append,
      flush_eq]
    rfl
  | @directive offset run text slice content rest more hrun hslice _ ih =>
    rw [run_append, run_plainRun hrun, run_append, run_directiveRun hslice]
    simp only [enter, close, flush_eq, ih, List.nil_append]
    simp
  | @unclosed offset run text slice terminator hrun hslice =>
    rw [run_append, run_plainRun hrun, finish_openDirective hslice, flush_eq]
    simp

theorem scan_of_lexed {source : List Char} {items : List TokenStream.Item}
    (h : Lexed sigil 0 source items) : scan sigil source = items :=
  finish_lexed h []

end Run

end Automaton

/-- Searching and slicing gives what reading one character at a time gives. -/
theorem TokenStream.items_eq_scan (sigil : Char) (source : String) :
    (start sigil source).items = Automaton.scan sigil source.toList := by
  have hscan := Automaton.scan_of_lexed (lexed_start sigil source)
  exact hscan.symm

example : Automaton.scan '-' "---\x7bx\x7d- a --".toList =
    [.ok ⟨.plain "-", ⟨0, 2⟩⟩, .ok ⟨.directive "x", ⟨2, 6⟩⟩, .ok ⟨.directive "a", ⟨6, 11⟩⟩,
      .error ⟨.unterminatedDirective '-', ⟨11, 12⟩⟩] := by
  rfl

end Stencil
