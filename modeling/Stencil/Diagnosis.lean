import Stencil.Error
import Stencil.Span
import Stencil.Text.Bytes

namespace Stencil

/-- A place in a source: a line, and a byte of that line, both counted from zero. -/
structure Position where
  line : UInt32
  character : UInt32
  deriving DecidableEq, Repr

/-- From one position up to another. -/
structure Range where
  start : Position
  stop : Position
  deriving DecidableEq, Repr

structure Diagnosis where
  range : Range
  severity : Option Int32
  message : String
  deriving DecidableEq, Repr

/-- The line of a byte offset and the byte within that line. A line goes on up to and including its
    newline; an offset beyond the text is on its last line. -/
def lineAndByte (line byte : Nat) : List Char → Nat → Nat × Nat
  | [], offset => (line, byte + offset)
  | c :: cs, offset =>
    if offset < c.utf8Size then (line, byte + offset)
    else if c = '\n' then lineAndByte (line + 1) 0 cs (offset - c.utf8Size)
    else lineAndByte line (byte + c.utf8Size) cs (offset - c.utf8Size)

def Position.ofOffset (source : List Char) (offset : Nat) : Position :=
  let (line, byte) := lineAndByte 0 0 source offset
  ⟨UInt32.ofNat line, UInt32.ofNat byte⟩

namespace Diagnosis

/-- The severity of what stops a template from being used. -/
def error : Int32 := 1

/-- What is wrong, and where. -/
def ofError (source : List Char) (e : Spanned TemplateError) : Diagnosis :=
  let span := e.span.clamp (Text.bytes source)
  ⟨⟨Position.ofOffset source span.start, Position.ofOffset source span.stop⟩, some error,
    e.value.message⟩

def ofErrors (source : String) (es : List (Spanned TemplateError)) : List Diagnosis :=
  es.map (ofError source.toList)

end Diagnosis
end Stencil
