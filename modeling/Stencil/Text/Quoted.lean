import Stencil.Text.Extend
import Stencil.Text.Unprintable

namespace Stencil.Text

/-- `n` in lower case hexadecimal, without padding. -/
def hex (n : Nat) : List Char := Nat.toDigits 16 n

/-- How a character is written inside quotes: some have a short escape, and those that cannot be
    seen, or that would attach to the one before them, are written by code point. -/
def quoteChar (c : Char) : List Char :=
  match c with
  | '"' => ['\\', '"']
  | '\\' => ['\\', '\\']
  | '\t' => ['\\', 't']
  | '\r' => ['\\', 'r']
  | '\n' => ['\\', 'n']
  | '\x00' => ['\\', '0']
  | c =>
    if isExtend c || isUnprintable c then ['\\', 'u', '{'] ++ hex c.toNat ++ ['}']
    else [c]

/-- A text in double quotes. -/
def quoted (text : String) : String :=
  "\"" ++ String.ofList (text.toList.flatMap quoteChar) ++ "\""

end Stencil.Text
