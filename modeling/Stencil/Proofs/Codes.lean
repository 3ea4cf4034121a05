import Mathlib.Data.Set.Function
import Stencil.Text.Cut
import Stencil.Text.Quoted

namespace Stencil

/-- A text that begins with what is written for a thing of some kind says which thing this is, and
    where it ends. -/
structure PrefixCode {α : Type} (kind : Set α) (write : α → List Char) : Prop where
  ne_nil : ∀ a ∈ kind, write a ≠ []
  append_inj : ∀ a ∈ kind, ∀ b ∈ kind, ∀ r s, write a ++ r = write b ++ s → a = b ∧ r = s

namespace PrefixCode

variable {α : Type} {kind : Set α} {write : α → List Char}

/-- What is written one after another can be read back. -/
theorem flatMap_inj (h : PrefixCode kind write) {xs ys : List α} (hxs : ∀ x ∈ xs, x ∈ kind)
    (hys : ∀ y ∈ ys, y ∈ kind) (heq : xs.flatMap write = ys.flatMap write) : xs = ys := by
  induction xs generalizing ys with
  | nil =>
    cases ys with
    | nil => rfl
    | cons y ys =>
      have hnil := (List.append_eq_nil_iff.1 heq.symm).1
      exact absurd hnil (h.ne_nil y (hys y List.mem_cons_self))
  | cons x xs ih =>
    have hx := hxs x List.mem_cons_self
    cases ys with
    | nil =>
      have hnil := (List.append_eq_nil_iff.1 heq).1
      exact absurd hnil (h.ne_nil x hx)
    | cons y ys =>
      obtain ⟨rfl, hrest⟩ := h.append_inj x hx y (hys y List.mem_cons_self) _ _ heq
      have htail := ih (fun z hz => hxs z (List.mem_cons_of_mem _ hz))
        (fun z hz => hys z (List.mem_cons_of_mem _ hz)) hrest
      rw [htail]

/-- Lines that differ, with no newline inside, can be told apart one below the other. -/
theorem ofLines (hline : ∀ a ∈ kind, '\n' ∉ write a) (hinj : Set.InjOn write kind) :
    PrefixCode kind fun a => write a ++ ['\n'] where
  ne_nil a _ := List.append_ne_nil_of_right_ne_nil _ (List.cons_ne_nil _ _)
  append_inj a ha b hb r s h := by
    rw [List.append_assoc, List.append_assoc] at h
    obtain ⟨hwrite, hrest⟩ := Text.append_cons_inj (hline a ha) (hline b hb) h
    exact ⟨hinj ha hb hwrite, hrest⟩

end PrefixCode

namespace Text

theorem digitChar_inj : ∀ n < 16, ∀ m < 16, n.digitChar = m.digitChar → n = m := by decide

/-- The last digit, and what stands before it. -/
theorem hex_eq (n : Nat) :
    hex n = (if n < 16 then [] else hex (n / 16)) ++ [(n % 16).digitChar] := by
  rw [hex, Nat.toDigits_eq_if (by decide)]
  split
  · rename_i hn
    rw [Nat.mod_eq_of_lt hn, List.nil_append]
  · rfl

theorem hex_inj {n m : Nat} (h : hex n = hex m) : n = m := by
  induction n using Nat.strongRecOn generalizing m with
  | ind n ih =>
    rw [hex_eq n, hex_eq m] at h
    obtain ⟨hfront, hlast⟩ := List.append_inj' h rfl
    have hdigit : n % 16 = m % 16 :=
      digitChar_inj _ (Nat.mod_lt _ (by decide)) _ (Nat.mod_lt _ (by decide))
        (List.singleton_inj.1 hlast)
    split at hfront <;> split at hfront
    · omega
    · exact absurd hfront.symm Nat.toDigits_ne_nil
    · exact absurd hfront Nat.toDigits_ne_nil
    · have hrest : n / 16 = m / 16 := ih (n / 16) (by omega) hfront
      omega

theorem not_mem_hex {c : Char} (hc : ∀ m < 16, c ≠ m.digitChar) (n : Nat) : c ∉ hex n := by
  induction n using Nat.strongRecOn with
  | ind n ih =>
    rw [hex_eq, List.mem_append, List.mem_singleton, not_or]
    refine ⟨?_, hc _ (Nat.mod_lt _ (by decide))⟩
    split
    · exact List.not_mem_nil
    · exact ih (n / 16) (by omega)

/-- The character that a mark behind a backslash stands for. -/
def unmarked : Char → Char
  | 't' => '\t'
  | 'r' => '\r'
  | 'n' => '\n'
  | '0' => '\x00'
  | c => c

/-- What stands behind a backslash for a character. -/
inductive Escaped : List Char → Char → Prop where
  | mark (m : Char) (hcode : m ≠ 'u') (hline : m ≠ '\n') : Escaped [m] (unmarked m)
  | code (c : Char) : Escaped ('u' :: '{' :: (hex c.toNat ++ ['}'])) c

namespace Escaped

theorem append_inj {w x : List Char} {c d : Char} (hw : Escaped w c) (hx : Escaped x d)
    {r s : List Char} (h : w ++ r = x ++ s) : c = d ∧ r = s := by
  cases hw with
  | mark m hm =>
    cases hx with
    | mark l hl =>
      obtain ⟨rfl, rfl⟩ := List.cons.inj h
      exact ⟨rfl, rfl⟩
    | code => exact absurd (List.cons.inj h).1 hm
  | code =>
    cases hx with
    | mark l hl => exact absurd (List.cons.inj h).1.symm hl
    | code =>
      have hdigits : hex c.toNat ++ '}' :: r = hex d.toNat ++ '}' :: s := by
        simpa using h
      -- the number goes up to the first closing bracket
      obtain ⟨hhex, hrest⟩ :=
        append_cons_inj (not_mem_hex (by decide) _) (not_mem_hex (by decide) _) hdigits
      exact ⟨Char.toNat_inj.1 (hex_inj hhex), hrest⟩

theorem newline_not_mem {w : List Char} {c : Char} (h : Escaped w c) : '\n' ∉ w := by
  cases h with
  | mark m hcode hline => exact fun hmem => hline (List.mem_singleton.1 hmem).symm
  | code =>
    have hdigits : '\n' ∉ hex c.toNat := not_mem_hex (by decide) _
    simp [hdigits]

end Escaped

/-- Most characters stand for themselves; the backslash, the newline and what else is not wanted are
    written behind a backslash. -/
def Escapes (write : Char → List Char) : Prop :=
  ∀ c, write c = [c] ∧ c ≠ '\\' ∧ c ≠ '\n' ∨ ∃ w, write c = '\\' :: w ∧ Escaped w c

namespace Escapes

variable {write : Char → List Char}

theorem prefixCode (h : Escapes write) : PrefixCode Set.univ write where
  ne_nil c _ := by
    rcases h c with ⟨hc, -⟩ | ⟨w, hc, -⟩ <;> rw [hc] <;> exact List.cons_ne_nil _ _
  append_inj c _ d _ r s heq := by
    rcases h c with ⟨hc, hraw, -⟩ | ⟨w, hc, hw⟩ <;>
      rcases h d with ⟨hd, hraw', -⟩ | ⟨x, hd, hx⟩ <;>
      rw [hc, hd] at heq <;> obtain ⟨hhead, hrest⟩ := List.cons.inj heq
    · exact ⟨hhead, hrest⟩
    · exact absurd hhead hraw
    · exact absurd hhead.symm hraw'
    · exact hw.append_inj hx hrest

theorem flatMap_injective (h : Escapes write) :
    Function.Injective fun text : List Char => text.flatMap write := by
  intro xs ys heq
  exact h.prefixCode.flatMap_inj (fun _ _ => Set.mem_univ _) (fun _ _ => Set.mem_univ _) heq

theorem newline_not_mem (h : Escapes write) (text : List Char) : '\n' ∉ text.flatMap write := by
  intro hmem
  obtain ⟨c, -, hc⟩ := List.mem_flatMap.1 hmem
  rcases h c with ⟨hwrite, -, hline⟩ | ⟨w, hwrite, hw⟩
  · rw [hwrite, List.mem_singleton] at hc
    exact hline hc.symm
  · rw [hwrite, List.mem_cons] at hc
    rcases hc with hc | hc
    · exact absurd hc (by decide)
    · exact hw.newline_not_mem hc

end Escapes

end Text
end Stencil
