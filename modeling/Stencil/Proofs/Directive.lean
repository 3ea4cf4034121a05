import Stencil.Directive

namespace Stencil.Directive

def content : Directive → String
  | ifBlock condition => "if(" ++ condition ++ ")"
  | elseIf condition => "elseif(" ++ condition ++ ")"
  | otherwise => "else"
  | endIf => "endif"
  | forBlock source => "for(" ++ source ++ ")"
  | sep => "sep"
  | endFor => "endfor"
  | lookup path => path

def opensWith (opener text : String) : Bool := opener.toList.isPrefixOf text.toList

def closed (text : String) : Bool := text.toList.getLast? == some ')'

def openers : List String := ["if(", "elseif(", "for("]

/-- Starts like a block, and does not end in a parenthesis. -/
def malformed (text : String) : Bool := openers.any (opensWith · text) && !closed text

theorem classify_content {d : Directive} (h : ∀ path, d ≠ lookup path) :
    classify d.content = .ok d := by
  cases d with
  | lookup path => exact absurd rfl (h path)
  | ifBlock c => simp [content, classify, block?, argument?]
  | elseIf c => simp [content, classify, block?, argument?]
  | forBlock c => simp [content, classify, block?, argument?]
  | _ => rfl

theorem content_word (text : String) : (word text).content = text := by
  unfold word
  split <;> rfl

theorem argument?_eq_some {cs argument : List Char} (h : argument? cs = some argument) :
    cs = argument ++ [')'] := by
  unfold argument? at h
  split at h
  · rename_i hlast
    cases h
    obtain ⟨init, rfl⟩ := List.getLast?_eq_some_iff.1 hlast
    simp
  · exact absurd h (by simp)

/-- The three ways in which a block starts. -/
theorem block?_eq_some {text : String} {block : String → Directive} {rest : List Char}
    (h : block? text.toList = some (block, rest)) :
    ∃ opener ∈ openers, text.toList = opener.toList ++ rest ∧
      ∀ argument, (block argument).content = opener ++ argument ++ ")" ∧
        ∀ path, block argument ≠ lookup path := by
  unfold block? at h
  split at h
  · rename_i ht
    cases h
    exact ⟨"if(", by simp [openers], ht, fun _ => ⟨rfl, by simp⟩⟩
  · rename_i ht
    cases h
    exact ⟨"elseif(", by simp [openers], ht, fun _ => ⟨rfl, by simp⟩⟩
  · rename_i ht
    cases h
    exact ⟨"for(", by simp [openers], ht, fun _ => ⟨rfl, by simp⟩⟩
  · exact absurd h (by simp)

theorem opensWith_iff {opener text : String} :
    opensWith opener text = true ↔ ∃ rest, text.toList = opener.toList ++ rest := by
  rw [opensWith, List.isPrefixOf_iff_prefix]
  exact ⟨fun ⟨rest, h⟩ => ⟨rest, h.symm⟩, fun ⟨rest, h⟩ => ⟨rest, h.symm⟩⟩

theorem block?_ne_none {opener text : String} (hmem : opener ∈ openers)
    (h : opensWith opener text = true) : block? text.toList ≠ none := by
  obtain ⟨rest, ht⟩ := opensWith_iff.1 h
  rw [ht]
  simp only [openers, List.mem_cons, List.not_mem_nil, or_false] at hmem
  rcases hmem with rfl | rfl | rfl <;> simp [block?]

/-- An opener ends in an opening parenthesis, so a closing one has to come after it. -/
theorem closed_eq_isSome {opener text : String} {rest : List Char}
    (hmem : opener ∈ openers) (ht : text.toList = opener.toList ++ rest) :
    closed text = (argument? rest).isSome := by
  have hlast : opener.toList.getLast? = some '(' := by
    simp only [openers, List.mem_cons, List.not_mem_nil, or_false] at hmem
    rcases hmem with rfl | rfl | rfl <;> rfl
  rw [closed, ht, List.getLast?_append, hlast, argument?]
  cases rest.getLast? with
  | none => rfl
  | some c => by_cases hc : c = ')' <;> simp [hc]

theorem content_of_classify {text : String} {d : Directive} (h : classify text = .ok d) :
    d.content = text := by
  unfold classify at h
  split at h
  · rename_i block rest hb
    obtain ⟨opener, -, ht, hcontent⟩ := block?_eq_some hb
    split at h
    · rename_i argument ha
      cases h
      rw [(hcontent _).1, ← String.toList_inj, ht, argument?_eq_some ha]
      simp
    · cases h
  · cases h
    exact content_word text

theorem classify_eq_error_iff {text : String} {e : ParseError} :
    classify text = .error e ↔ malformed text = true ∧ e = .malformedDirective text := by
  unfold classify
  cases hb : block? text.toList with
  | none =>
    have hno : openers.any (opensWith · text) = false := by
      rw [List.any_eq_false]
      intro opener hmem h
      exact block?_ne_none hmem h hb
    simp [malformed, hno]
  | some found =>
    obtain ⟨block, rest⟩ := found
    obtain ⟨opener, hmem, ht, -⟩ := block?_eq_some hb
    have hopens : openers.any (opensWith · text) = true :=
      List.any_eq_true.2 ⟨opener, hmem, opensWith_iff.2 ⟨rest, ht⟩⟩
    rw [malformed, hopens, Bool.true_and, closed_eq_isSome hmem ht]
    cases ha : argument? rest with
    | none => simp [ha, eq_comm]
    | some argument => simp [ha]

theorem classify_ne_lookup {opener text : String} (hmem : opener ∈ openers)
    (h : opensWith opener text = true) (path : String) : classify text ≠ .ok (lookup path) := by
  unfold classify
  cases hb : block? text.toList with
  | none => exact absurd hb (block?_ne_none hmem h)
  | some found =>
    obtain ⟨block, rest⟩ := found
    obtain ⟨_, -, -, hblock⟩ := block?_eq_some hb
    cases ha : argument? rest with
    | none => simp [ha]
    | some argument => simpa [ha] using (hblock _).2 path

/-- A keyword cannot be written in two ways. -/
theorem eq_content_iff {text : String} {d : Directive} (h : classify text = .ok d) (keyword : Directive)
    (hk : ∀ path, keyword ≠ lookup path) : text = keyword.content ↔ d = keyword := by
  constructor
  · rintro rfl
    rw [classify_content hk] at h
    exact (Except.ok.inj h).symm
  · rintro rfl
    exact (content_of_classify h).symm

theorem opensWith_of_classify {text : String} {d : Directive} (h : classify text = .ok d) :
    opensWith "if(" text = (d matches .ifBlock _) ∧
      opensWith "elseif(" text = (d matches .elseIf _) ∧
      opensWith "for(" text = (d matches .forBlock _) := by
  cases d with
  | lookup path =>
    have hno (opener : String) (hmem : opener ∈ openers) : opensWith opener text = false := by
      rw [← Bool.not_eq_true]
      exact fun hopens => classify_ne_lookup hmem hopens path h
    exact ⟨hno _ (by simp [openers]), hno _ (by simp [openers]), hno _ (by simp [openers])⟩
  | _ =>
    obtain rfl := content_of_classify h
    simp [opensWith, content, List.isPrefixOf]

end Stencil.Directive
