namespace Stencil

/-- Reads from the front of a text: what was read and what is left, or nothing. -/
abbrev Scan (α : Type) := StateT (List Char) Option α

namespace Scan
variable {α : Type}

/-- One character with a property. -/
def char (p : Char → Bool) : Scan Char
  | [] => none
  | c :: cs => if p c then some (c, cs) else none

/-- A given text. -/
def exactly (text : List Char) : Scan Unit := fun cs =>
  if text.isPrefixOf cs then some ((), cs.drop text.length) else none

/-- All characters up to the first without a property. -/
def takeWhile (p : Char → Bool) : Scan (List Char) := fun cs => some (cs.takeWhile p, cs.dropWhile p)

/-- The end of the text. -/
def done : Scan Unit
  | [] => some ((), [])
  | _ => none

def perhaps (p : Scan α) : Scan (Option α) := fun cs =>
  match p cs with
  | some (a, rest) => some (some a, rest)
  | none => some (none, cs)

def repeated (p : Scan α) (cs : List Char) : List α × List Char :=
  match p cs with
  | none => ([], cs)
  | some (a, rest) =>
    if rest.length < cs.length then
      let (more, left) := repeated p rest
      (a :: more, left)
    else ([], cs)
termination_by cs.length

/-- As often as it goes, as long as something is read. -/
def many (p : Scan α) : Scan (List α) := fun cs => some (repeated p cs)

/-- Once or more often, with something between. -/
def separated (p : Scan α) (between : Scan Unit) : Scan (List α) := do
  let first ← p
  let more ← many (do between; p)
  return first :: more

/-- What a text as a whole is read as. -/
def whole (p : Scan α) (cs : List Char) : Option α :=
  match p cs with
  | some (a, []) => some a
  | _ => none

end Scan
end Stencil
