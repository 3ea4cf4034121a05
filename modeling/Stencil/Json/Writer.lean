import Stencil.Decimal.Layout
import Stencil.Json.Basic
import Stencil.Text.Quoted

namespace Stencil.Json

/-- Only quotes, backslashes and controls are escaped. -/
def escape (c : Char) : List Char :=
  match c with
  | '"' => ['\\', '"']
  | '\\' => ['\\', '\\']
  | '\n' => ['\\', 'n']
  | '\r' => ['\\', 'r']
  | '\t' => ['\\', 't']
  | '\x08' => ['\\', 'b']
  | '\x0c' => ['\\', 'f']
  | c =>
    if c.toNat < 0x20 then
      ['\\', 'u', '0', '0'] ++ List.replicate (2 - (Text.hex c.toNat).length) '0' ++ Text.hex c.toNat
    else [c]

def writeString (s : String) : String := "\"" ++ String.ofList (s.toList.flatMap escape) ++ "\""

/-- A float without a value to write is null. -/
def Number.write : Number → String
  | .natural n => toString n.toNat
  | .negative n => toString n.toInt
  | .real x => if x.isFinite then Decimal.Layout.document.write x else "null"

/-- What stands between the parts of a document. -/
structure Spacing where
  /-- In front of an entry, so many levels in. -/
  line : Nat → String
  /-- Behind a colon. -/
  colon : String
  blank_line : ∀ depth, ∀ c ∈ (line depth).toList, c = ' ' ∨ c = '\n'
  blank_colon : ∀ c ∈ colon.toList, c = ' ' ∨ c = '\n'

namespace Spacing

/-- No blanks. -/
def none : Spacing where
  line _ := ""
  colon := ""
  blank_line _ _ h := nomatch h
  blank_colon _ h := nomatch h

/-- A new line for each entry, two blanks in for each level. -/
def lines : Spacing where
  line depth := "\n" ++ String.ofList (List.replicate (2 * depth) ' ')
  colon := " "
  blank_line depth c h := by
    rw [String.toList_append, List.mem_append] at h
    rcases h with h | h
    · exact .inr (List.mem_singleton.1 h)
    · rw [String.toList_ofList] at h
      exact .inl (List.eq_of_mem_replicate h)
  blank_colon c h := .inl (List.mem_singleton.1 h)

/-- What stands in front of a closing bracket: nothing if there are no entries. -/
def closing (spacing : Spacing) (depth : Nat) (isEmpty : Bool) : String :=
  if isEmpty then "" else spacing.line depth

theorem blank_closing (spacing : Spacing) (depth : Nat) (isEmpty : Bool) :
    ∀ c ∈ (spacing.closing depth isEmpty).toList, c = ' ' ∨ c = '\n' := by
  cases isEmpty with
  | false => exact spacing.blank_line depth
  | true => exact fun _ h => nomatch h

end Spacing

mutual

def write (spacing : Spacing) (depth : Nat) : Json → String
  | null => "null"
  | bool b => if b then "true" else "false"
  | number n => n.write
  | string s => writeString s
  | array items =>
    "[" ++ writeItems spacing (depth + 1) items ++ spacing.closing depth items.isEmpty ++ "]"
  | object entries =>
    "\x7b" ++ writeEntries spacing (depth + 1) entries ++ spacing.closing depth entries.isEmpty ++
      "\x7d"

def writeItems (spacing : Spacing) (depth : Nat) : List Json → String
  | [] => ""
  | [item] => spacing.line depth ++ write spacing depth item
  | item :: rest =>
    spacing.line depth ++ write spacing depth item ++ "," ++ writeItems spacing depth rest

def writeEntries (spacing : Spacing) (depth : Nat) : List (String × Json) → String
  | [] => ""
  | [(key, value)] =>
    spacing.line depth ++ writeString key ++ ":" ++ spacing.colon ++ write spacing depth value
  | (key, value) :: rest =>
    spacing.line depth ++ writeString key ++ ":" ++ spacing.colon ++ write spacing depth value ++
      "," ++ writeEntries spacing depth rest

end

def compact (j : Json) : String := j.write .none 0

def pretty (j : Json) : String := j.write .lines 0

end Stencil.Json
