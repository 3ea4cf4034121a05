import Mathlib.Data.List.Chain
import Mathlib.Data.List.DropRight
import Stencil.Proofs.Lexemes

namespace Stencil

namespace Text

theorem trim_eq_rdropWhile (cs : List Char) : trim cs = (cs.dropWhile isBlank).rdropWhile isBlank := rfl

theorem dropWhile_of_prefix {α : Type} {p : α → Bool} {xs ys : List α}
    (h : xs <+: ys.dropWhile p) : xs.dropWhile p = xs := by
  rw [List.dropWhile_eq_self_iff]
  intro hpos
  have hpos' : 0 < (ys.dropWhile p).length := Nat.lt_of_lt_of_le hpos h.length_le
  have hhead : xs[0] = (ys.dropWhile p)[0] := h.getElem hpos
  rw [hhead]
  exact List.dropWhile_get_zero_not p ys hpos'

theorem trim_trim (cs : List Char) : trim (trim cs) = trim cs := by
  have hstart : (trim cs).dropWhile isBlank = trim cs :=
    dropWhile_of_prefix (List.rdropWhile_prefix _ _)
  rw [trim_eq_rdropWhile (trim cs), hstart]
  exact List.rdropWhile_idempotent _ _

theorem trim_padded {pad : Char} (h : isBlank pad = true) (cs : List Char) :
    trim (pad :: (cs ++ [pad])) = trim cs := by
  rw [trim_eq_rdropWhile, List.dropWhile_cons_of_pos h, List.dropWhile_append]
  by_cases hblank : (cs.dropWhile isBlank).isEmpty = true
  · have hnil : cs.dropWhile isBlank = [] := List.isEmpty_iff.1 hblank
    simp [hnil, h, trim_eq_rdropWhile]
  · rw [if_neg hblank, List.rdropWhile_concat_pos _ _ _ h, trim_eq_rdropWhile]

theorem trim_subset (cs : List Char) : trim cs ⊆ cs := by
  intro c hc
  have hbegin : trim cs <+: cs.dropWhile isBlank := List.rdropWhile_prefix _ _
  exact (List.dropWhile_sublist _).subset (hbegin.subset hc)

end Text

namespace Token

def isPlain : Token → Bool
  | .plain _ => true
  | .directive _ => false

/-- Brackets take every content without a closing one, unless the sigil is the opening one. -/
def Curly (sigil : Char) (content : String) : Prop := '}' ∉ content.toList ∧ sigil ≠ '{'

instance (sigil : Char) (content : String) : Decidable (Curly sigil content) :=
  inferInstanceAs (Decidable (_ ∧ _))

/-- Between two sigils a content cannot hold one, nor keep blanks at its ends. -/
def Bare (sigil : Char) (content : String) : Prop :=
  Text.trim content.toList = content.toList ∧ sigil ∉ content.toList

instance (sigil : Char) (content : String) : Decidable (Bare sigil content) :=
  inferInstanceAs (Decidable (_ ∧ _))

/-- The lists of tokens that sources have. -/
structure Canonical (sigil : Char) (ts : List Token) : Prop where
  nonempty : .plain "" ∉ ts
  apart : ts.IsChain fun t u => ¬ (t.isPlain ∧ u.isPlain)
  contents : ∀ content, .directive content ∈ ts → Curly sigil content ∨ Bare sigil content

/-- A blank that is not the sigil. -/
def pad (sigil : Char) : Char := if sigil = ' ' then '\t' else ' '

/-- A token as it stands in a source. -/
def written (sigil : Char) : Token → List Char
  | .plain text => text.toList.flatMap fun c => if c = sigil then [sigil, sigil] else [c]
  | .directive content =>
    if Curly sigil content then sigil :: '{' :: (content.toList ++ ['}'])
    else sigil :: pad sigil :: (content.toList ++ [pad sigil, sigil])

def source (sigil : Char) (ts : List Token) : String := String.ofList (ts.flatMap (written sigil))

/-- The tokens of a source without their spans. -/
def tokenize (sigil : Char) (source : String) : Except (Spanned LexicalError) (List Token) :=
  (ofSource sigil source).map (·.map (·.value))

section Written

variable {sigil : Char}

theorem isBlank_pad (sigil : Char) : Text.isBlank (pad sigil) = true := by
  unfold pad
  split <;> rfl

theorem pad_ne_sigil (sigil : Char) : pad sigil ≠ sigil := by
  unfold pad
  split
  · rename_i h
    rw [h]
    decide
  · rename_i h
    exact Ne.symm h

theorem plainRun_doubled (text : List Char) :
    PlainRun sigil (text.flatMap fun c => if c = sigil then [sigil, sigil] else [c]) text := by
  induction text with
  | nil => exact .nil
  | cons c text ih =>
    rw [List.flatMap_cons]
    split
    · rename_i h
      subst h
      exact .escape ih
    · rename_i h
      exact .char h ih

theorem directiveRun_written {content : String} (h : Curly sigil content ∨ Bare sigil content) :
    DirectiveRun sigil (written sigil (.directive content)) content.toList := by
  rw [written]
  split
  · rename_i hcurly
    exact .curly hcurly.2 hcurly.1
  · rename_i hcurly
    obtain ⟨htrim, hsigil⟩ := h.resolve_left hcurly
    have hpad : pad sigil ≠ '{' ∧ pad sigil ≠ '-' := by
      unfold pad
      split <;> decide
    have hstart : BareStart (pad sigil :: (content.toList ++ [pad sigil])) := by
      simp [BareStart, List.cons_prefix_cons, hpad.1, Ne.symm hpad.2]
    have hmem : sigil ∉ pad sigil :: (content.toList ++ [pad sigil]) := by
      simp [hsigil, Ne.symm (pad_ne_sigil sigil)]
    have hrun := DirectiveRun.bare (by simp) hstart hmem
    rw [Text.trim_padded (isBlank_pad sigil), htrim] at hrun
    simpa using hrun

theorem Canonical.tail {t : Token} {ts : List Token} (h : Canonical sigil (t :: ts)) :
    Canonical sigil ts :=
  ⟨fun hmem => h.nonempty (List.mem_cons_of_mem _ hmem), h.apart.tail,
    fun content hmem => h.contents content (List.mem_cons_of_mem _ hmem)⟩

theorem Canonical.values_plainTokens {text : String} {ts : List Token}
    (h : Canonical sigil (.plain text :: ts)) (offset : Nat) (slice : List Char) :
    (plainTokens offset slice text.toList).map (·.value) = [.plain text] := by
  have htext : text.toList ≠ [] := by
    intro hempty
    rw [String.toList_eq_nil_iff] at hempty
    subst hempty
    exact h.nonempty List.mem_cons_self
  rw [plainTokens, if_neg htext, String.ofList_toList]
  rfl

theorem lexed_written_directive {content : String} (hc : Curly sigil content ∨ Bare sigil content)
    {run text rest : List Char} (hrun : PlainRun sigil run text) {offset : Nat}
    {us : List (Spanned Token)}
    (h : Lexed sigil
      (offset + Text.bytes run + Text.bytes (written sigil (.directive content))) rest (us.map .ok)) :
    ∃ span, Lexed sigil offset (run ++ (written sigil (.directive content) ++ rest))
      ((plainTokens offset run text ++ ⟨.directive content, span⟩ :: us).map .ok) := by
  have hall := Lexed.directive hrun (directiveRun_written hc) h
  rw [String.ofList_toList] at hall
  exact ⟨_, by simpa using hall⟩

theorem Canonical.exists_lexed : {ts : List Token} → Canonical sigil ts → (offset : Nat) →
    ∃ us : List (Spanned Token), us.map (·.value) = ts ∧
      Lexed sigil offset (ts.flatMap (written sigil)) (us.map .ok)
  | [], _, offset => ⟨[], rfl, .done .nil .done⟩
  -- plain text comes before a directive, so a text and the directive after it are written as one step
  | .directive content :: ts, h, offset => by
    obtain ⟨us, hus, hrest⟩ := h.tail.exists_lexed
      (offset + Text.bytes [] + Text.bytes (written sigil (.directive content)))
    obtain ⟨span, hall⟩ := lexed_written_directive (h.contents content List.mem_cons_self) .nil hrest
    exact ⟨_ :: us, by simpa using hus, hall⟩
  | [.plain text], h, offset => by
    have hrun : PlainRun sigil (written sigil (.plain text)) text.toList := plainRun_doubled _
    exact ⟨_, h.values_plainTokens offset _, .done hrun .done⟩
  | .plain text :: .directive content :: ts, h, offset => by
    have hrun : PlainRun sigil (written sigil (.plain text)) text.toList := plainRun_doubled _
    obtain ⟨us, hus, hrest⟩ := h.tail.tail.exists_lexed
      (offset + Text.bytes (written sigil (.plain text)) +
        Text.bytes (written sigil (.directive content)))
    obtain ⟨span, hall⟩ :=
      lexed_written_directive (h.contents content (by simp)) hrun hrest
    refine ⟨_, ?_, hall⟩
    rw [List.map_append, h.values_plainTokens, List.map_cons, hus]
    rfl
  | .plain _ :: .plain _ :: _, h, _ => by
    have hfirst := List.isChain_cons_cons.1 h.apart
    exact absurd ⟨rfl, rfl⟩ hfirst.1

theorem contents_of_run {slice content : List Char} (h : DirectiveRun sigil slice content) :
    Curly sigil (String.ofList content) ∨ Bare sigil (String.ofList content) := by
  cases h with
  | curly hs hc => exact .inl ⟨by simpa using hc, hs⟩
  | bare _ _ hs =>
    refine .inr ⟨?_, ?_⟩
    · rw [String.toList_ofList, Text.trim_trim]
    · rw [String.toList_ofList]
      exact fun hmem => hs (Text.trim_subset _ hmem)

theorem Canonical.cons_plain {text : List Char} {ts : List Token} (h : Canonical sigil ts)
    (htext : text ≠ []) (hhead : ∀ t ∈ ts.head?, t.isPlain = false) :
    Canonical sigil (.plain (String.ofList text) :: ts) := by
  refine ⟨?_, List.isChain_cons.2 ⟨?_, h.apart⟩, ?_⟩
  · intro hmem
    rcases List.mem_cons.1 hmem with heq | hmem
    · rw [Token.plain.injEq, eq_comm, String.ofList_eq_empty_iff] at heq
      exact htext heq
    · exact h.nonempty hmem
  · intro t ht hplain
    exact absurd hplain.2 (by simp [hhead t ht])
  · intro content hmem
    exact h.contents content (by simpa using hmem)

theorem Canonical.cons_directive {content : String} {ts : List Token} (h : Canonical sigil ts)
    (hc : Curly sigil content ∨ Bare sigil content) : Canonical sigil (.directive content :: ts) := by
  refine ⟨?_, List.isChain_cons.2 ⟨?_, h.apart⟩, ?_⟩
  · intro hmem
    exact h.nonempty (by simpa using hmem)
  · intro t _ hplain
    exact absurd hplain.1 (by simp [isPlain])
  · intro other hmem
    rcases List.mem_cons.1 hmem with heq | hmem
    · cases heq
      exact hc
    · exact h.contents other hmem

theorem Canonical.append_plain {ts : List Token} (h : Canonical sigil ts)
    (hhead : ∀ t ∈ ts.head?, t.isPlain = false) (offset : Nat) (slice text : List Char) :
    Canonical sigil ((plainTokens offset slice text).map (·.value) ++ ts) := by
  unfold plainTokens
  split
  · exact h
  · rename_i htext
    exact h.cons_plain htext hhead

theorem canonical_of_lexed {offset : Nat} {source : List Char} {us : List (Spanned Token)}
    (h : Lexed sigil offset source (us.map .ok)) : Canonical sigil (us.map (·.value)) := by
  generalize hitems : us.map Except.ok = items at h
  induction h generalizing us with
  | @done offset run text skipped hrun hend =>
    have hnil : Canonical sigil [] := ⟨by simp, by simp, by simp⟩
    have hplain := hnil.append_plain (by simp) offset (run ++ skipped) text
    rwa [List.append_nil, ← eq_of_map_ok hitems] at hplain
  | directive hrun hslice h ih =>
    obtain ⟨u, more, rfl, hu, hmore⟩ := map_ok_eq_append_cons hitems
    cases hu
    rw [List.map_append]
    exact ((ih hmore.symm).cons_directive (contents_of_run hslice)).append_plain (by simp [isPlain])
      _ _ _
  | unclosed =>
    obtain ⟨u, more, -, hu, -⟩ := map_ok_eq_append_cons hitems
    cases hu

theorem tokenize_eq_ok_iff {source : String} {ts : List Token} :
    tokenize sigil source = .ok ts ↔
      ∃ us : List (Spanned Token), us.map (·.value) = ts ∧
        Lexed sigil 0 source.toList (us.map .ok) := by
  simp only [← ofSource_eq_ok_iff]
  unfold tokenize
  cases ofSource sigil source with
  | error e => simp [Except.map]
  | ok us => simp [Except.map]

theorem canonical_of_tokenize {source : String} {ts : List Token}
    (h : tokenize sigil source = .ok ts) : Canonical sigil ts := by
  obtain ⟨us, rfl, hlexed⟩ := tokenize_eq_ok_iff.1 h
  exact canonical_of_lexed hlexed

theorem tokenize_source {ts : List Token} (h : Canonical sigil ts) :
    tokenize sigil (source sigil ts) = .ok ts := by
  obtain ⟨us, hus, hlexed⟩ := h.exists_lexed 0
  rw [tokenize_eq_ok_iff]
  exact ⟨us, hus, by rwa [source, String.toList_ofList]⟩

end Written

/-- Writing tokens and reading them back are inverse: canonical lists, and no others, are read back as
    they were written, and no source has any others. -/
theorem canonical_iff_tokenize_source (sigil : Char) :
    (∀ ts, Canonical sigil ts ↔ tokenize sigil (source sigil ts) = .ok ts) ∧
      ∀ text ts, tokenize sigil text = .ok ts →
        Canonical sigil ts ∧ tokenize sigil (source sigil ts) = .ok ts := by
  refine ⟨fun ts => ⟨tokenize_source, canonical_of_tokenize⟩, ?_⟩
  intro text ts h
  exact ⟨canonical_of_tokenize h, tokenize_source (canonical_of_tokenize h)⟩

/-- Dashes that are the sigil: two of them are one in a text, and no comment starts. -/
theorem tokenize_source_dashes :
    let ts : List Token := [.directive "\x7bx", .plain "--", .directive "a\x7db", .directive "-"]
    let text := "-\x7b\x7bx\x7d----- a\x7db --\x7b-\x7d"
    Canonical '-' ts ∧ source '-' ts = text ∧ tokenize '-' text = .ok ts := by
  intro ts text
  have hcanonical : Canonical '-' ts := by
    refine ⟨by decide, by simp [ts, isPlain], ?_⟩
    intro content hmem
    simp only [ts, List.mem_cons, Token.directive.injEq, reduceCtorEq, false_or, List.not_mem_nil,
      or_false] at hmem
    rcases hmem with rfl | rfl | rfl <;> decide
  have hsource : source '-' ts = text := by decide
  obtain ⟨hread, hback⟩ := canonical_iff_tokenize_source '-'
  have htokens := (hread ts).1 hcanonical
  rw [hsource] at htokens
  exact ⟨(hback text ts htokens).1, hsource, htokens⟩

end Token
end Stencil
