import Mathlib.Data.Set.Function
import Stencil.Proofs.Codes
import Stencil.Token.Basic

namespace Stencil.Token

/-- A text with every occurrence of a character replaced. -/
def replaced (old : Char) (new text : List Char) : List Char :=
  text.flatMap fun c => if c = old then new else [c]

theorem replaced_append (old : Char) (new xs ys : List Char) :
    replaced old new (xs ++ ys) = replaced old new xs ++ replaced old new ys :=
  List.flatMap_append

/-- The backslashes of a text are doubled, and then the other characters are replaced, one after
    another. -/
def escapedText (text : List Char) : List Char :=
  replaced '\n' ['\\', 'n'] (replaced '\t' ['\\', 't']
    (replaced '"' ['\\', '"'] (replaced '\\' ['\\', '\\'] text)))

theorem replaced_singleton {old c : Char} (h : c ≠ old) (new : List Char) :
    replaced old new [c] = [c] := by
  rw [replaced, List.flatMap_singleton, if_neg h]

theorem escapedText_singleton (c : Char) : escapedText [c] = escape c := by
  unfold escape
  split
  · rfl
  · rfl
  · rfl
  · rfl
  · rename_i hbackslash hquote htab hnewline
    rw [escapedText, replaced_singleton hbackslash, replaced_singleton hquote,
      replaced_singleton htab, replaced_singleton hnewline]

/-- No replacement meets what an earlier one has put in, except for the backslashes, which come
    first. -/
theorem flatMap_escape (text : List Char) : text.flatMap escape = escapedText text := by
  induction text with
  | nil => rfl
  | cons c cs ih =>
    have happend : escapedText (c :: cs) = escapedText [c] ++ escapedText cs := by
      rw [← List.singleton_append, escapedText]
      simp only [replaced_append]
      rfl
    rw [List.flatMap_cons, ih, happend, escapedText_singleton]

theorem escapes_escape : Text.Escapes escape := by
  intro c
  unfold escape
  split
  · exact .inr ⟨_, rfl, .mark '\\' (by decide) (by decide)⟩
  · exact .inr ⟨_, rfl, .mark '"' (by decide) (by decide)⟩
  · exact .inr ⟨_, rfl, .mark 't' (by decide) (by decide)⟩
  · exact .inr ⟨_, rfl, .mark 'n' (by decide) (by decide)⟩
  · rename_i hbackslash _ _ hnewline
    exact .inl ⟨rfl, hbackslash, hnewline⟩

theorem toList_label (t : Token) :
    t.label.toList = t.kind.toList ++ '<' :: (t.content.toList.flatMap escape ++ ['>']) := by
  simp [label]

theorem bracket_not_mem_kind (t : Token) : '<' ∉ t.kind.toList := by
  cases t with
  | plain => exact (by decide : '<' ∉ "Plain".toList)
  | directive => exact (by decide : '<' ∉ "Directive".toList)

theorem newline_not_mem_kind (t : Token) : '\n' ∉ t.kind.toList := by
  cases t with
  | plain => exact (by decide : '\n' ∉ "Plain".toList)
  | directive => exact (by decide : '\n' ∉ "Directive".toList)

theorem newline_not_mem_label (t : Token) : '\n' ∉ t.label.toList := by
  have hkind := newline_not_mem_kind t
  have hcontent := escapes_escape.newline_not_mem t.content.toList
  rw [toList_label]
  simp [hkind, hcontent]

theorem eq_of_kind_of_content {t u : Token} (hkind : t.kind = u.kind)
    (hcontent : t.content = u.content) : t = u := by
  cases t with
  | plain x =>
    cases u with
    | plain y => exact congrArg plain hcontent
    | directive y => exact absurd hkind (by decide : "Plain" ≠ "Directive")
  | directive x =>
    cases u with
    | plain y => exact absurd hkind (by decide : "Directive" ≠ "Plain")
    | directive y => exact congrArg directive hcontent

theorem label_injective : Function.Injective label := by
  intro t u h
  have hlist := congrArg String.toList h
  rw [toList_label, toList_label] at hlist
  -- a kind goes up to the first opening bracket
  obtain ⟨hkind, hrest⟩ :=
    Text.append_cons_inj (bracket_not_mem_kind t) (bracket_not_mem_kind u) hlist
  have hcontent := escapes_escape.flatMap_injective (List.append_cancel_right hrest)
  exact eq_of_kind_of_content (String.toList_inj.1 hkind) (String.toList_inj.1 hcontent)

theorem toList_listing (ts : List Token) :
    (listing ts).toList = ts.flatMap fun t => t.label.toList ++ ['\n'] := by
  induction ts with
  | nil => rfl
  | cons t ts ih => simp [listing, ih]

/-- A listing has one line for each token, and each line says what its token is. -/
theorem listing_decodable :
    Function.Injective listing ∧ Function.Injective label ∧
      ∀ t : Token, '\n' ∉ t.label.toList ∧
        t.label.toList = t.kind.toList ++ '<' :: (escapedText t.content.toList ++ ['>']) := by
  refine ⟨?_, label_injective, fun t => ⟨newline_not_mem_label t, ?_⟩⟩
  · intro ts us h
    have hlines : PrefixCode Set.univ fun t : Token => t.label.toList ++ ['\n'] :=
      PrefixCode.ofLines (fun t _ => newline_not_mem_label t)
        (fun t _ u _ htu => label_injective (String.toList_inj.1 htu))
    have hlist := congrArg String.toList h
    rw [toList_listing, toList_listing] at hlist
    exact hlines.flatMap_inj (fun _ _ => Set.mem_univ _) (fun _ _ => Set.mem_univ _) hlist
  · rw [toList_label, flatMap_escape]

end Stencil.Token
