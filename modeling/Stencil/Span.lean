namespace Stencil

/-- Bytes `start` up to `stop` of a source. -/
structure Span where
  start : Nat
  stop : Nat
  deriving DecidableEq, Repr

/-- Limits a span to a source of `len` bytes. -/
def Span.clamp (s : Span) (len : Nat) : Span := ⟨min s.start len, min s.stop len⟩

/-- A value and the bytes of the source that it came from. -/
structure Spanned (α : Type) where
  value : α
  span : Span
  deriving DecidableEq, Repr

def Spanned.map {α β : Type} (f : α → β) (x : Spanned α) : Spanned β := ⟨f x.value, x.span⟩

theorem Span.clamp_of_le {s : Span} {len : Nat} (h1 : s.start ≤ len) (h2 : s.stop ≤ len) :
    s.clamp len = s := by
  simp [Span.clamp, Nat.min_eq_left h1, Nat.min_eq_left h2]

end Stencil
