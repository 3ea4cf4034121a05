import Stencil.Error
import Stencil.Span
import Stencil.Text.Blank
import Stencil.Text.Bytes
import Stencil.Text.Cut
import Stencil.Token.Basic

namespace Stencil

/-- What a sigil inside plain text stands for. -/
inductive Mark where
  /-- A second sigil follows: one literal sigil. -/
  | escape (rest : List Char)
  /-- `--` follows: a comment, up to and including the end of its line. -/
  | comment (rest : List Char)
  /-- Anything else opens a directive. -/
  | directive

namespace Mark

/-- What follows a comment whose marker starts the text. -/
def afterComment? : List Char → Option (List Char)
  | '-' :: '-' :: body => some ((body.dropWhile (· != '\n')).drop 1)
  | _ => none

def read (sigil : Char) (after : List Char) : Mark :=
  if after.head? = some sigil then .escape after.tail
  else match afterComment? after with
    | some rest => .comment rest
    | none => .directive

end Mark

theorem length_afterComment? {cs rest : List Char} (h : Mark.afterComment? cs = some rest) :
    rest.length < cs.length := by
  unfold Mark.afterComment? at h
  split at h
  · rename_i body
    have := (List.dropWhile_sublist (l := body) (· != '\n')).length_le
    simp only [Option.some.injEq] at h
    subst h
    simp only [List.length_drop, List.length_cons]
    omega
  · simp at h

theorem length_read_comment {sigil : Char} {cs rest : List Char}
    (h : Mark.read sigil cs = .comment rest) : rest.length < cs.length := by
  unfold Mark.read at h
  split at h
  · simp at h
  · split at h
    · rename_i hr
      cases h
      exact length_afterComment? hr
    · simp at h

theorem length_read_escape {sigil : Char} {cs rest : List Char}
    (h : Mark.read sigil cs = .escape rest) : rest.length < cs.length := by
  unfold Mark.read at h
  split at h
  · rename_i hc
    cases h
    cases cs with
    | nil => simp at hc
    | cons c cs => simp
  · split at h <;> simp at h

theorem length_cut? {stop : Char} {cs a b : List Char} (h : Text.cut? stop cs = some (a, b)) :
    a.length + b.length + 1 = cs.length := by
  rw [(Text.cut?_eq_some_iff.1 h).1]
  simp only [List.length_append, List.length_cons]
  omega

/-- The plain text at the front of a source, escapes and comments resolved, and what is left:
    nothing, or a directive with its opening sigil. -/
def plainText (sigil : Char) (source : List Char) : List Char × List Char :=
  match _h : Text.cut? sigil source with
  | none => (source, [])
  | some (text, after) =>
    match _hm : Mark.read sigil after with
    | .escape rest =>
      let (more, left) := plainText sigil rest
      (text ++ sigil :: more, left)
    | .comment rest =>
      let (more, left) := plainText sigil rest
      (text ++ more, left)
    | .directive => (text, sigil :: after)
termination_by source.length
decreasing_by
  · have := length_cut? _h
    have := length_read_escape _hm
    omega
  · have := length_cut? _h
    have := length_read_comment _hm
    omega

theorem length_plainText (sigil : Char) (source : List Char) :
    (plainText sigil source).1.length + (plainText sigil source).2.length ≤ source.length := by
  fun_induction plainText sigil source with
  | case1 => simp
  | case2 source text after h rest hm more left hp ih =>
    have := length_cut? h
    have := length_read_escape hm
    simp only [hp, List.length_append, List.length_cons] at ih ⊢
    omega
  | case3 source text after h rest hm more left hp ih =>
    have := length_cut? h
    have := length_read_comment hm
    simp only [hp, List.length_append] at ih ⊢
    omega
  | case4 source text after h hm =>
    have := length_cut? h
    simp only [List.length_cons]
    omega

/-- How a directive ends, how its content is kept, and where the content starts. -/
structure Directive.Form where
  terminator : Char
  raw : Bool
  body : List Char

/-- In curly brackets a directive's content is kept as it is; otherwise it is trimmed. -/
def Directive.Form.read (sigil : Char) : List Char → Directive.Form
  | '{' :: body => ⟨'}', true, body⟩
  | body => ⟨sigil, false, body⟩

theorem length_form_body (sigil : Char) (after : List Char) :
    (Directive.Form.read sigil after).body.length ≤ after.length := by
  unfold Directive.Form.read
  split <;> simp

/-- A source that is read token by token. -/
structure TokenStream where
  sigil : Char
  /-- Bytes read so far. -/
  offset : Nat
  rest : List Char

namespace TokenStream

abbrev Item := Except (Spanned LexicalError) (Spanned Token)

def start (sigil : Char) (source : String) : TokenStream := ⟨sigil, 0, source.toList⟩

/-- Moves on to where only `rest` is left. -/
def advance (t : TokenStream) (rest : List Char) : TokenStream :=
  ⟨t.sigil, t.offset + (Text.bytes t.rest - Text.bytes rest), rest⟩

def spanTo (t u : TokenStream) : Span := ⟨t.offset, u.offset⟩

/-- Reads a directive of which `after` follows the opening sigil. One that is never closed takes
    all that is left. -/
def directive (t : TokenStream) (after : List Char) : Item × TokenStream :=
  let form := Directive.Form.read t.sigil after
  match Text.cut? form.terminator form.body with
  | none =>
    let u := t.advance []
    (.error ⟨.unterminatedDirective form.terminator, t.spanTo u⟩, u)
  | some (content, rest) =>
    let u := t.advance rest
    let content := if form.raw then content else Text.trim content
    (.ok ⟨.directive (String.ofList content), t.spanTo u⟩, u)

/-- The next token. Plain text that comes out empty, such as a comment, is no token. -/
def next (t : TokenStream) : Option Item × TokenStream :=
  let (text, rest) := plainText t.sigil t.rest
  let u := t.advance rest
  if text.isEmpty then
    match rest with
    | [] => (none, u)
    | _ :: after =>
      let (item, v) := u.directive after
      (some item, v)
  else
    (some (.ok ⟨.plain (String.ofList text), t.spanTo u⟩), u)

@[simp] theorem rest_advance (t : TokenStream) (rest : List Char) : (t.advance rest).rest = rest := rfl

theorem length_directive (t : TokenStream) (after : List Char) :
    (t.directive after).2.rest.length ≤ after.length := by
  simp only [directive]
  split
  · simp
  · rename_i h
    have := length_cut? h
    have := length_form_body t.sigil after
    simp only [rest_advance]
    omega

/-- An item takes at least one character. -/
theorem length_next {t u : TokenStream} {item : Item} (h : t.next = (some item, u)) :
    u.rest.length < t.rest.length := by
  have hp := length_plainText t.sigil t.rest
  unfold next at h
  generalize plainText t.sigil t.rest = p at hp h
  obtain ⟨text, rest⟩ := p
  simp only at hp h
  split at h
  · split at h
    · simp at h
    · rename_i c after
      have hd := length_directive (t.advance (c :: after)) after
      generalize (t.advance (c :: after)).directive after = q at hd h
      obtain ⟨i, v⟩ := q
      simp only [Prod.mk.injEq, Option.some.injEq] at h
      obtain ⟨rfl, rfl⟩ := h
      simp only [List.length_cons] at hp hd
      omega
  · rename_i ht
    simp only [Prod.mk.injEq, Option.some.injEq] at h
    obtain ⟨-, rfl⟩ := h
    cases text with
    | nil => simp at ht
    | cons c cs =>
      simp only [List.length_cons, rest_advance] at hp ⊢
      omega

/-- All that is left to read; an error comes last. -/
def items (t : TokenStream) : List Item :=
  match _h : t.next with
  | (none, _) => []
  | (some item, u) => item :: u.items
termination_by t.rest.length
decreasing_by exact length_next _h

end TokenStream

/-- The items of a list up to its first error, if there is one. -/
def collect {ε α : Type} : List (Except ε α) → Except ε (List α)
  | [] => .ok []
  | .error e :: _ => .error e
  | .ok x :: rest => (collect rest).map (x :: ·)

namespace Token

/-- The tokens of a source, or its first error. -/
def ofSource (sigil : Char) (source : String) : Except (Spanned LexicalError) (List (Spanned Token)) :=
  collect (TokenStream.start sigil source).items

end Token
end Stencil
