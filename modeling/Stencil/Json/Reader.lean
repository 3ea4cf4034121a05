import Stencil.Decimal.Literal
import Stencil.Json.Basic

namespace Stencil.Json

/-- The parts that a document is written with. -/
inductive Symbol where
  | openArray
  | closeArray
  | openObject
  | closeObject
  | comma
  | colon
  | string (s : String)
  /-- A number or a literal name. -/
  | scalar (j : Json)

/-- Value of four hexadecimal digits. -/
def hexQuad? (a b c d : Char) : Option Nat :=
  if [a, b, c, d].all (Text.isDigit 16) then some (Text.ofDigits 16 [a, b, c, d]) else none

/-- The character of an escape of one letter. -/
def letter? : Char → Option Char
  | '"' => some '"'
  | '\\' => some '\\'
  | '/' => some '/'
  | 'b' => some '\x08'
  | 'f' => some '\x0c'
  | 'n' => some '\n'
  | 'r' => some '\r'
  | 't' => some '\t'
  | _ => none

/-- Puts a character in front of a text that was read. -/
def push (c : Char) : Option (List Char × List Char) → Option (List Char × List Char)
  | some (text, rest) => some (c :: text, rest)
  | none => none

/-- The text up to the closing quote, and what follows it. Characters beyond U+FFFF are escaped as
    a pair of surrogates; a surrogate alone stands for nothing. -/
def readString : List Char → Option (List Char × List Char)
  | [] => none
  | '"' :: rest => some ([], rest)
  | '\\' :: 'u' :: a :: b :: c :: d :: rest =>
    match hexQuad? a b c d with
    | none => none
    | some n =>
      if n < 0xD800 ∨ 0xE000 ≤ n then push (Char.ofNat n) (readString rest)
      else if 0xDC00 ≤ n then none
      else match rest with
        | '\\' :: 'u' :: e :: f :: g :: h :: rest =>
          match hexQuad? e f g h with
          | none => none
          | some m =>
            if 0xDC00 ≤ m ∧ m < 0xE000 then
              push (Char.ofNat (0x10000 + (n - 0xD800) * 0x400 + (m - 0xDC00))) (readString rest)
            else none
        | _ => none
  | '\\' :: l :: rest =>
    match letter? l with
    | some c => push c (readString rest)
    | none => none
  | c :: rest => if c.toNat < 0x20 ∨ c = '\\' then none else push c (readString rest)

/-- An integer is kept as one if 64 bits hold it. Zero below zero is a float. -/
def Number.ofLiteral? (x : Decimal.Literal) : Option Number :=
  let n := Text.ofDigits 10 x.whole
  if x.isInteger && !x.negative && decide (n < UInt64.size) then some (.natural (UInt64.ofNat n))
  else if x.isInteger && x.negative && decide (0 < n) && decide (Int64.minValue.toInt ≤ -n) then
    some (.negative (Int64.ofInt (-n)))
  else x.toFloat?.map .real

def readNumber (cs : List Char) : Option Json := do
  let literal ← match cs with
    | '-' :: rest => Decimal.Literal.unsigned? true rest
    | cs => Decimal.Literal.unsigned? false cs
  return number (← Number.ofLiteral? literal)

/-- Whether a character can be part of a number. -/
def numeric (c : Char) : Bool := c.isDigit || c == '-' || c == '+' || c == '.' || c == 'e' || c == 'E'

def readWord (cs : List Char) : Option Json :=
  if cs = ['n', 'u', 'l', 'l'] then some null
  else if cs = ['t', 'r', 'u', 'e'] then some (bool true)
  else if cs = ['f', 'a', 'l', 's', 'e'] then some (bool false)
  else none

theorem push_eq_some {c : Char} {x : Option (List Char × List Char)} {text rest : List Char}
    (h : push c x = some (text, rest)) : ∃ more, x = some (more, rest) := by
  cases x with
  | none => simp [push] at h
  | some p =>
    simp only [push, Option.some.injEq, Prod.mk.injEq] at h
    exact ⟨p.1, by rw [← h.2]⟩

theorem length_readString {cs text rest : List Char} (h : readString cs = some (text, rest)) :
    rest.length < cs.length := by
  fun_induction readString cs generalizing text rest with
  | case2 rest =>
    simp only [Option.some.injEq, Prod.mk.injEq] at h
    simp [h.2]
  | case4 | case7 | case10 | case13 =>
    rename_i ih
    obtain ⟨more, hm⟩ := push_eq_some h
    have := ih hm
    simp only [List.length_cons]
    omega
  | _ => simp at h

theorem length_dropWhile_lt {p : Char → Bool} {c : Char} {cs : List Char} (h : p c = true) :
    ((c :: cs).dropWhile p).length < (c :: cs).length := by
  have := (List.dropWhile_sublist (l := cs) p).length_le
  simp only [List.dropWhile_cons, h, if_true, List.length_cons]
  omega

/-- The symbols of a text. -/
def symbols (cs : List Char) : Option (List Symbol) :=
  match cs with
  | [] => some []
  | c :: rest =>
    if c = ' ' ∨ c = '\n' ∨ c = '\r' ∨ c = '\t' then symbols rest
    else if c = '[' then (symbols rest).map (.openArray :: ·)
    else if c = ']' then (symbols rest).map (.closeArray :: ·)
    else if c = '{' then (symbols rest).map (.openObject :: ·)
    else if c = '}' then (symbols rest).map (.closeObject :: ·)
    else if c = ',' then (symbols rest).map (.comma :: ·)
    else if c = ':' then (symbols rest).map (.colon :: ·)
    else if c = '"' then
      match _h : readString rest with
      | some (text, left) => (symbols left).map (.string (String.ofList text) :: ·)
      | none => none
    else if _hn : numeric c = true then
      match readNumber ((c :: rest).takeWhile numeric) with
      | some j => (symbols ((c :: rest).dropWhile numeric)).map (.scalar j :: ·)
      | none => none
    else if _ha : c.isAlpha = true then
      match readWord ((c :: rest).takeWhile Char.isAlpha) with
      | some j => (symbols ((c :: rest).dropWhile Char.isAlpha)).map (.scalar j :: ·)
      | none => none
    else none
termination_by cs.length
decreasing_by
  all_goals try exact Nat.lt_succ_self _
  · exact Nat.lt_succ_of_lt (length_readString _h)
  · exact length_dropWhile_lt _hn
  · exact length_dropWhile_lt _ha

/-- A container of which a part has been read, its last entry first. -/
inductive Frame where
  | array (done : List Json)
  | object (done : List (String × Json)) (key : String)

/-- How deep containers may be nested. -/
def depthLimit : Nat := 127

mutual

/-- Reads on where a value has to stand. -/
def readValue (stack : List Frame) : List Symbol → Option Json
  | .string s :: rest => readNext stack (string s) rest
  | .scalar j :: rest => readNext stack j rest
  | .openArray :: rest =>
    if depthLimit ≤ stack.length then none
    else match rest with
      | .closeArray :: rest => readNext stack (array []) rest
      | rest => readValue (.array [] :: stack) rest
  | .openObject :: rest =>
    if depthLimit ≤ stack.length then none
    else match rest with
      | .closeObject :: rest => readNext stack (object []) rest
      | .string key :: .colon :: rest => readValue (.object [] key :: stack) rest
      | _ => none
  | _ => none

/-- Reads on after a value. -/
def readNext (stack : List Frame) (j : Json) : List Symbol → Option Json
  | [] =>
    match stack with
    | [] => some j
    | _ => none
  | symbol :: rest =>
    match stack, symbol with
    | .array done :: stack, .comma => readValue (.array (j :: done) :: stack) rest
    | .array done :: stack, .closeArray => readNext stack (array (j :: done).reverse) rest
    | .object done key :: stack, .comma =>
      match rest with
      | .string next :: .colon :: rest => readValue (.object ((key, j) :: done) next :: stack) rest
      | _ => none
    | .object done key :: stack, .closeObject =>
      readNext stack (object ((key, j) :: done).reverse) rest
    | _, _ => none

end

/-- The document that a text holds. -/
def read (text : String) : Option Json := do readValue [] (← symbols text.toList)

end Stencil.Json
