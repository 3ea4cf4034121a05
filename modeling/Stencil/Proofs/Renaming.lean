import Mathlib.Data.List.Basic
import Mathlib.Logic.Equiv.Basic
import Stencil.Proofs.Automaton

namespace Stencil

namespace Text

/-- Brackets, dashes and blanks mean the same whatever the sigil is. -/
def Reserved (c : Char) : Prop := c = '{' ∨ c = '}' ∨ c = '-' ∨ isBlank c = true

instance (c : Char) : Decidable (Reserved c) := inferInstanceAs (Decidable (_ ∨ _))

/-- A change of characters that keeps different ones different and reserved ones as they are. -/
structure Renames (σ : Char → Char) : Prop where
  injective : Function.Injective σ
  fixes : ∀ c, Reserved c → σ c = c

namespace Renames

variable {σ : Char → Char}

theorem isBlank_eq (h : Renames σ) (c : Char) : isBlank (σ c) = isBlank c := by
  by_cases hc : isBlank c = true
  · rw [h.fixes c (.inr (.inr (.inr hc)))]
  · -- only a blank is made a blank, since blanks stay where they are
    have hσ : isBlank (σ c) ≠ true := by
      intro hblank
      have heq : σ c = c := h.injective (h.fixes (σ c) (.inr (.inr (.inr hblank))))
      exact hc (heq ▸ hblank)
    rw [Bool.eq_false_iff.2 hc, Bool.eq_false_iff.2 hσ]

theorem openBracket (h : Renames σ) : σ '{' = '{' := h.fixes '{' (by decide)

theorem closeBracket (h : Renames σ) : σ '}' = '}' := h.fixes '}' (by decide)

theorem dash (h : Renames σ) : σ '-' = '-' := h.fixes '-' (by decide)

theorem newline (h : Renames σ) : σ '\n' = '\n' := h.fixes '\n' (by decide)

theorem not_mem (h : Renames σ) {c : Char} {text : List Char} (hc : c ∉ text) : σ c ∉ text.map σ := by
  rwa [List.mem_map_of_injective h.injective]

theorem ne_reserved (h : Renames σ) {c d : Char} (hd : σ d = d) (hc : c ≠ d) : σ c ≠ d := by
  rw [← hd]
  exact h.injective.ne hc

theorem trim_map (h : Renames σ) (text : List Char) : trim (text.map σ) = (trim text).map σ := by
  have hblank : isBlank ∘ σ = isBlank := funext h.isBlank_eq
  simp only [trim, List.dropWhile_map, ← List.map_reverse, hblank]

end Renames

end Text

section Grammar

variable {σ : Char → Char} {sigil : Char}

theorem map_commentText (hσ : Text.Renames σ) (body : List Char) :
    (commentText sigil body).map σ = commentText (σ sigil) (body.map σ) := by
  simp [commentText, hσ.dash]

theorem PlainRun.rename (hσ : Text.Renames σ) {run text : List Char} (h : PlainRun sigil run text) :
    PlainRun (σ sigil) (run.map σ) (text.map σ) := by
  induction h with
  | nil => exact .nil
  | char hc _ ih => exact .char (hσ.injective.ne hc) ih
  | escape _ ih => exact .escape ih
  | comment hs hb _ ih =>
    have hline := hσ.not_mem hb
    rw [hσ.newline] at hline
    rw [List.map_append, List.map_cons, map_commentText hσ, hσ.newline]
    exact .comment (hσ.ne_reserved hσ.dash hs) hline ih

theorem PlainEnd.rename (hσ : Text.Renames σ) {skipped : List Char} (h : PlainEnd sigil skipped) :
    PlainEnd (σ sigil) (skipped.map σ) := by
  cases h with
  | done => exact .done
  | comment hs hb =>
    have hline := hσ.not_mem hb
    rw [hσ.newline] at hline
    rw [map_commentText hσ]
    exact .comment (hσ.ne_reserved hσ.dash hs) hline

theorem BareStart.rename (hσ : Text.Renames σ) {body : List Char} (h : BareStart body) :
    BareStart (body.map σ) := by
  obtain ⟨hbracket, hdashes⟩ := h
  refine ⟨?_, ?_⟩
  · rw [List.head?_map]
    intro heq
    obtain ⟨c, hc, hσc⟩ := Option.map_eq_some_iff.1 heq
    rw [← hσ.openBracket] at hσc
    rw [hσ.injective hσc] at hc
    exact hbracket hc
  · intro hprefix
    obtain ⟨dashes, hdashes', heq⟩ := List.prefix_map_iff.1 hprefix
    have hmap : ['-', '-'].map σ = dashes.map σ := by simpa [hσ.dash] using heq
    exact hdashes (hσ.injective.list_map hmap ▸ hdashes')

theorem DirectiveRun.rename (hσ : Text.Renames σ) {slice content : List Char}
    (h : DirectiveRun sigil slice content) :
    DirectiveRun (σ sigil) (slice.map σ) (content.map σ) := by
  cases h with
  | curly hs hc =>
    have hcontent := hσ.not_mem hc
    rw [hσ.closeBracket] at hcontent
    simp only [List.map_cons, List.map_append, List.map_nil, hσ.openBracket, hσ.closeBracket]
    exact .curly (hσ.ne_reserved hσ.openBracket hs) hcontent
  | bare hne hb hs =>
    rw [← hσ.trim_map]
    simp only [List.map_cons, List.map_append, List.map_nil]
    exact .bare (by simpa using hne) (hb.rename hσ) (hσ.not_mem hs)

theorem OpenDirective.rename (hσ : Text.Renames σ) {slice : List Char} {terminator : Char}
    (h : OpenDirective sigil slice terminator) :
    OpenDirective (σ sigil) (slice.map σ) (σ terminator) := by
  cases h with
  | curly hs hb =>
    have hbody := hσ.not_mem hb
    rw [hσ.closeBracket] at hbody ⊢
    rw [List.map_cons, List.map_cons, hσ.openBracket]
    exact .curly (hσ.ne_reserved hσ.openBracket hs) hbody
  | bare hb hs => exact .bare (hb.rename hσ) (hσ.not_mem hs)

end Grammar

def Token.rename (σ : Char → Char) : Token → Token
  | .plain text => .plain (text.map σ)
  | .directive content => .directive (content.map σ)

def LexicalError.rename (σ : Char → Char) : LexicalError → LexicalError
  | .unterminatedDirective terminator => .unterminatedDirective (σ terminator)

namespace TokenStream

/-- An item without its place. -/
abbrev Content := Except LexicalError Token

def Item.content : Item → Content
  | .ok t => .ok t.value
  | .error e => .error e.value

def Content.rename (σ : Char → Char) : Content → Content
  | .ok t => .ok (t.rename σ)
  | .error e => .error (e.rename σ)

/-- The last item says that a directive lacks its terminator. -/
def EndsOpen (t : TokenStream) (terminator : Char) : Prop :=
  ∃ span, t.items.getLast? = some (.error ⟨.unterminatedDirective terminator, span⟩)

variable {σ : Char → Char} {sigil : Char}

theorem map_eq_ofList (σ : Char → Char) (text : String) :
    text.map σ = String.ofList (text.toList.map σ) := by
  rw [← String.toList_inj, String.toList_map, String.toList_ofList]

/-- Whether a run of plain text has a token does not depend on its characters. -/
theorem contents_plainTokens (σ : Char → Char) (start offset : Nat) (slice later text : List Char) :
    ((plainTokens start later (text.map σ)).map .ok).map Item.content =
      (((plainTokens offset slice text).map .ok).map Item.content).map (Content.rename σ) := by
  unfold plainTokens
  by_cases htext : text = []
  · simp [htext]
  · simp [htext, Item.content, Content.rename, Token.rename, map_eq_ofList]

/-- A source in other characters is cut at the same places. -/
theorem lexed_rename (hσ : Text.Renames σ) {offset : Nat} {source : List Char} {items : List Item}
    (h : Lexed sigil offset source items) (start : Nat) :
    ∃ renamed, Lexed (σ sigil) start (source.map σ) renamed ∧
      renamed.map Item.content = (items.map Item.content).map (Content.rename σ) := by
  induction h generalizing start with
  | @done offset run text skipped hrun hend =>
    have hlexed : Lexed (σ sigil) start _ _ := Lexed.done (hrun.rename hσ) (hend.rename hσ)
    rw [← List.map_append] at hlexed
    exact ⟨_, hlexed, contents_plainTokens σ _ _ _ _ _⟩
  | @directive offset run text slice content rest items hrun hslice _ ih =>
    obtain ⟨renamed, hrest, hcontents⟩ :=
      ih (start + Text.bytes (run.map σ) + Text.bytes (slice.map σ))
    have hlexed := Lexed.directive (hrun.rename hσ) (hslice.rename hσ) hrest
    rw [← List.map_append, ← List.map_append] at hlexed
    refine ⟨_, hlexed, ?_⟩
    rw [List.map_append, List.map_append, List.map_append, List.map_cons, List.map_cons, List.map_cons,
      hcontents, contents_plainTokens σ start offset run (run.map σ) text]
    simp [Item.content, Content.rename, Token.rename, map_eq_ofList]
  | @unclosed offset run text slice terminator hrun hslice =>
    have hlexed : Lexed (σ sigil) start _ _ := Lexed.unclosed (hrun.rename hσ) (hslice.rename hσ)
    rw [← List.map_append] at hlexed
    refine ⟨_, hlexed, ?_⟩
    rw [List.map_append, List.map_append, List.map_append,
      contents_plainTokens σ start offset run (run.map σ) text]
    rfl

theorem contents_rename (hσ : Text.Renames σ) (sigil : Char) (source : String) :
    (start (σ sigil) (source.map σ)).items.map Item.content =
      ((start sigil source).items.map Item.content).map (Content.rename σ) := by
  obtain ⟨renamed, hlexed, hcontents⟩ := lexed_rename hσ (lexed_start sigil source) 0
  have hitems : (start (σ sigil) (source.map σ)).items = renamed := by
    rw [items_eq_iff]
    simpa [start] using hlexed
  rw [hitems, hcontents]

theorem endsOpen_iff {t : TokenStream} {terminator : Char} :
    t.EndsOpen terminator ↔
      (t.items.map Item.content).getLast? = some (.error (.unterminatedDirective terminator)) := by
  rw [List.getLast?_map, Option.map_eq_some_iff]
  constructor
  · rintro ⟨span, hlast⟩
    exact ⟨_, hlast, rfl⟩
  · rintro ⟨item, hlast, hcontent⟩
    cases item with
    | ok token => cases hcontent
    | error e =>
      obtain ⟨value, span⟩ := e
      cases hcontent
      exact ⟨span, hlast⟩

theorem endsOpen_rename (hσ : Text.Renames σ) (sigil : Char) (source : String) (terminator : Char) :
    (start (σ sigil) (source.map σ)).EndsOpen (σ terminator) ↔ (start sigil source).EndsOpen terminator := by
  rw [endsOpen_iff, endsOpen_iff, contents_rename hσ, List.getLast?_map, Option.map_eq_some_iff]
  constructor
  · rintro ⟨content, hlast, hcontent⟩
    cases content with
    | ok token => cases hcontent
    | error e =>
      obtain ⟨found⟩ := e
      have hfound : σ found = σ terminator := by simpa [Content.rename, LexicalError.rename] using hcontent
      rw [hlast, hσ.injective hfound]
  · intro hlast
    exact ⟨_, hlast, rfl⟩

/-- Two characters that are not reserved may change places. -/
theorem renames_swap {s t : Char} (hs : ¬ Text.Reserved s) (ht : ¬ Text.Reserved t) :
    Text.Renames (Equiv.swap s t) := by
  refine ⟨(Equiv.swap s t).injective, ?_⟩
  intro c hc
  refine Equiv.swap_apply_of_ne_of_ne ?_ ?_
  · rintro rfl
    exact hs hc
  · rintro rfl
    exact ht hc

/-- No sigil is special: a source with two sigils exchanged has the tokens of the source, with the
    sigils exchanged in them, and ends as it does. -/
theorem contents_swap {s t : Char} (hs : ¬ Text.Reserved s) (ht : ¬ Text.Reserved t) (source : String) :
    (start t (source.map (Equiv.swap s t))).items.map Item.content =
        ((start s source).items.map Item.content).map (Content.rename (Equiv.swap s t)) ∧
      ∀ terminator, (start t (source.map (Equiv.swap s t))).EndsOpen (Equiv.swap s t terminator) ↔
        (start s source).EndsOpen terminator := by
  have hswap := renames_swap hs ht
  have hcontents := contents_rename hswap s source
  have hends := endsOpen_rename hswap s source
  rw [Equiv.swap_apply_left] at hcontents hends
  exact ⟨hcontents, hends⟩

/-- Sigils of one byte and of three, each also where it is no sigil: in text, in a comment and in
    brackets. -/
theorem contents_swap_widths :
    let source := "€$$ $--€ $\n$\x7b $€ \x7d$ €a $ $€"
    ¬ Text.Reserved '$' ∧ ¬ Text.Reserved '€' ∧
      source.map (Equiv.swap '$' '€') = "$€€ €--$ €\n€\x7b €$ \x7d€ $a € €$" ∧
      (start '€' (source.map (Equiv.swap '$' '€'))).items.map Item.content =
        [.ok (.plain "$€ "), .ok (.directive " €$ "), .ok (.directive "$a"), .ok (.plain " "),
          .error (.unterminatedDirective '€')] ∧
      (start '€' (source.map (Equiv.swap '$' '€'))).EndsOpen '€' := by
  intro source
  have hdollar : ¬ Text.Reserved '$' := by decide
  have heuro : ¬ Text.Reserved '€' := by decide
  have hitems : (start '$' source).items =
      Automaton.scan '$' "€$$ $--€ $\n$\x7b $€ \x7d$ €a $ $€".toList :=
    (Automaton.scan_of_lexed (lexed_start '$' source)).symm
  have hscan : (Automaton.scan '$' "€$$ $--€ $\n$\x7b $€ \x7d$ €a $ $€".toList).map Item.content =
      [.ok (.plain "€$ "), .ok (.directive " $€ "), .ok (.directive "€a"), .ok (.plain " "),
        .error (.unterminatedDirective '$')] := by
    rfl
  have hopen : (start '$' source).EndsOpen '$' := by
    rw [endsOpen_iff, hitems, hscan]
    rfl
  have hsource : "€$$ $--€ $\n$\x7b $€ \x7d$ €a $ $€".map (Equiv.swap '$' '€') =
      "$€€ €--$ €\n€\x7b €$ \x7d€ $a € €$" := by
    rw [map_eq_ofList]
    rfl
  obtain ⟨hswapped, hends⟩ := contents_swap hdollar heuro source
  refine ⟨hdollar, heuro, hsource, ?_, ?_⟩
  · rw [hswapped, hitems, hscan]
    simp only [List.map_cons, List.map_nil, Content.rename, Token.rename, LexicalError.rename,
      map_eq_ofList]
    rfl
  · have hlast := (hends '$').2 hopen
    rwa [Equiv.swap_apply_left] at hlast

end TokenStream
end Stencil
