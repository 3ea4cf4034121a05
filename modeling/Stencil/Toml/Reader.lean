import Stencil.Decimal.Literal
import Stencil.Toml.Moment
import Stencil.Toml.Table

namespace Stencil.Toml
open Scan

def isSpace (c : Char) : Bool := c == ' ' || c == '\t'

def spaces : Scan Unit := do let _ ← takeWhile isSpace

def newline : Scan Unit := exactly ['\n'] <|> exactly ['\r', '\n']

/-- What may stand in a comment or a literal text: no control but the tab. -/
def isVisible (c : Char) : Bool := c == '\t' || (decide (0x20 ≤ c.toNat) && c.toNat != 0x7F)

def comment : Scan Unit := do
  exactly ['#']
  let _ ← takeWhile isVisible

/-- What may follow a statement on its line. -/
def lineEnd : Scan Unit := do
  spaces
  let _ ← perhaps comment
  newline <|> done

/-- Spaces, comments and ends of lines between the elements of an array. -/
def gap : Scan Unit := do
  let _ ← many ((do let _ ← char isSpace) <|> newline <|> (do comment; newline))

/-- The value of hexadecimal digits, so many of them. -/
def hexDigits (count : Nat) : Scan Nat := fun cs =>
  let digits := cs.take count
  if digits.length = count ∧ digits.all (Text.isDigit 16) then
    some (Text.ofDigits 16 digits, cs.drop count)
  else none

def codePoint (digits : Nat) : Scan Char := do
  let n ← hexDigits digits
  if n.isValidChar then return Char.ofNat n else failure

/-- A character that is written with a backslash. -/
def escape : Scan Char := do
  exactly ['\\']
  match ← char fun _ => true with
  | 'b' => return '\x08'
  | 't' => return '\t'
  | 'n' => return '\n'
  | 'f' => return '\x0c'
  | 'r' => return '\r'
  | '"' => return '"'
  | '\\' => return '\\'
  | 'u' => codePoint 4
  | 'U' => codePoint 8
  | _ => failure

def basicString : Scan String := do
  exactly ['"']
  let text ← many (char (fun c => isVisible c && c != '"' && c != '\\') <|> escape)
  exactly ['"']
  return String.ofList text

def literalString : Scan String := do
  exactly ['\'']
  let text ← takeWhile fun c => isVisible c && c != '\''
  exactly ['\'']
  return String.ofList text

/-- One or two quotes inside a text. No three stand together there. -/
def innerQuotes (quote : Char) : Scan (List Char) := fun cs =>
  let run := cs.takeWhile (· == quote)
  if run.length = 1 ∨ run.length = 2 then some (run, cs.drop run.length) else none

/-- The three quotes that close a text, and up to two in front of them that belong to it. -/
def closingQuotes (quote : Char) : Scan (List Char) := fun cs =>
  let run := cs.takeWhile (· == quote)
  if run.length < 3 then none
  else
    let count := min (run.length - 3) 2
    some (run.take count, cs.drop (count + 3))

/-- A backslash at the end of a line: it and all blanks and newlines after it are left out. -/
def lineContinuation : Scan (List Char) := do
  exactly ['\\']
  spaces
  newline
  let _ ← many ((do let _ ← char isSpace) <|> newline)
  return []

/-- A text over several lines. A newline right after the opening quotes is left out, others are read
    as line feeds. -/
def multiline (quote : Char) (part : Scan (List Char)) : Scan String := do
  exactly [quote, quote, quote]
  let _ ← perhaps newline
  let parts ← many (part <|> (do newline; return ['\n']) <|> innerQuotes quote)
  return String.ofList (parts.flatten ++ (← closingQuotes quote))

def multilineBasic : Scan String :=
  multiline '"' ((do return [← char fun c => isVisible c && c != '"' && c != '\\']) <|>
    lineContinuation <|> (do return [← escape]))

def multilineLiteral : Scan String :=
  multiline '\'' (do return [← char fun c => isVisible c && c != '\''])

def text : Scan String := multilineBasic <|> basicString <|> multilineLiteral <|> literalString

/-- Digits, single underscores between them left out. -/
def underscored (p : Char → Bool) : Scan (List Char) := do
  let first ← char p
  return first :: (← many (char p <|> (do exactly ['_']; char p)))

def sign : Scan Bool := do
  match ← perhaps (char fun c => c == '+' || c == '-') with
  | some c => return c == '-'
  | none => return false

/-- The digits of a decimal integer: no zero leads. -/
def decimalDigits : Scan (List Char) := do
  match ← underscored Char.isDigit with
  | ['0'] => return ['0']
  | '0' :: _ => failure
  | digits => return digits

/-- Integers have 64 bits. -/
def int64 (n : Int) : Scan Value :=
  if Int64.minValue.toInt ≤ n ∧ n ≤ Int64.maxValue.toInt then pure (.integer (Int64.ofInt n)) else failure

/-- An integer in another base than ten. -/
def based (mark : Char) (base : Nat) : Scan Value := do
  exactly ['0', mark]
  int64 (Text.ofDigits base (← underscored (Text.isDigit base)))

def decimal : Scan Value := do
  let negative ← sign
  let n := Text.ofDigits 10 (← decimalDigits)
  int64 (if negative then -n else n)

def integer : Scan Value := based 'x' 16 <|> based 'o' 8 <|> based 'b' 2 <|> decimal

def exponent : Scan Int := do
  let _ ← char fun c => c == 'e' || c == 'E'
  let negative ← sign
  let n := Text.ofDigits 10 (← underscored Char.isDigit)
  return if negative then -n else n

/-- Digits with a point, an exponent, or both. -/
def float : Scan Value := do
  let negative ← sign
  let whole ← decimalDigits
  let fraction ← perhaps (do exactly ['.']; underscored Char.isDigit)
  let exponent ← perhaps exponent
  if fraction.isNone && exponent.isNone then failure
  match Decimal.Literal.toFloat? ⟨negative, whole, fraction, exponent⟩ with
  | some x => return .float x
  | none => failure

def special : Scan Value := do
  let negative ← sign
  let x ← (do exactly ['i', 'n', 'f']; return (1.0 / 0.0 : Float)) <|>
    (do exactly ['n', 'a', 'n']; return (0.0 / 0.0 : Float))
  return .float (if negative then -x else x)

def boolean : Scan Value :=
  (do exactly ['t', 'r', 'u', 'e']; return .bool true) <|>
    (do exactly ['f', 'a', 'l', 's', 'e']; return .bool false)

/-- A date or time is a map of one entry. -/
def momentKey : String := "$__toml_private_datetime"

def scalar : Scan Value :=
  (Value.string <$> text) <|>
    ((fun m => Value.map [(momentKey, .string (String.ofList m.text))]) <$> moment) <|>
    float <|> special <|> integer <|> boolean

def isBare (c : Char) : Bool := c.isAlphanum || c == '-' || c == '_'

def key : Scan String :=
  basicString <|> literalString <|> do
    let first ← char isBare
    return String.ofList (first :: (← takeWhile isBare))

/-- How deep arrays and inline tables may be nested, and how many keys a dotted key may have. -/
def depthLimit : Nat := 79

/-- A dotted key: the keys of the tables on the way, and the last one. -/
def dottedKey : Scan (List String × String) := do
  let keys ← separated (do spaces; let k ← key; spaces; return k) (exactly ['.'])
  if depthLimit < keys.length then failure
  match keys.getLast? with
  | some last => return (keys.dropLast, last)
  | none => failure

/-- A key and a value. -/
def pair (value : Scan Value) : Scan ((List String × String) × Value) := do
  let path ← dottedKey
  exactly ['=']
  spaces
  return (path, ← value)

def array (value : Scan Value) : Scan Value := do
  exactly ['[']
  let items ← perhaps (separated (do gap; let v ← value; gap; return v) (exactly [',']))
  if items.isSome then let _ ← perhaps (exactly [','])
  gap
  exactly [']']
  return .list (items.getD [])

/-- A table on one line. Nothing can be added to it later. -/
def inlineTable (value : Scan Value) : Scan Value := do
  exactly ['{']
  let pairs ← perhaps (separated (do let p ← pair value; spaces; return p) (exactly [',']))
  spaces
  exactly ['}']
  let entries := (pairs.getD []).foldlM (fun (entries : Entries) ((path, key), v) =>
    entries.insert key v path) []
  match entries with
  | some entries => return .map entries.toData
  | none => failure

/-- A value with arrays and inline tables up to a depth. -/
def value : Nat → Scan Value
  | 0 => scalar
  | depth + 1 => scalar <|> array (value depth) <|> inlineTable (value depth)

def header : Scan Statement := do
  exactly ['[']
  let (path, key) ← dottedKey
  exactly [']']
  lineEnd
  return .table path key

def elementHeader : Scan Statement := do
  exactly ['[', '[']
  let (path, key) ← dottedKey
  exactly [']', ']']
  lineEnd
  return .element path key

/-- A statement and the spaces before it. -/
def statement : Scan Statement := do
  spaces
  (do newline; return .blank) <|> (do comment; newline <|> done; return .blank) <|>
    elementHeader <|> header <|> do
      let ((path, key), v) ← pair (value depthLimit)
      lineEnd
      return .pair path key v

/-- The data that a document holds. A byte order mark in front is left out. -/
def read (source : String) : Option Data := do
  let cs := match source.toList with
    | '\uFEFF' :: cs => cs
    | cs => cs
  let statements ← whole (do let statements ← many statement; spaces; return statements) cs
  return (← run [] [] statements).toData

end Stencil.Toml
