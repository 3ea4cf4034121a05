namespace Stencil

inductive LexicalError where
  | unterminatedDirective (terminator : Char)
  deriving DecidableEq, Repr

inductive ParseError where
  | unterminatedBlock (opener expected : String)
  | malformedDirective (content : String)
  deriving DecidableEq, Repr

/-- Failures while data is put together. -/
inductive ContextError where
  | unreadableFile (path message : String)
  | unsupportedFormat (path : String)
  | invalidData (path message : String)
  | notAMapping (path : String)
  | invalidAssignment (text : String)
  deriving DecidableEq, Repr

inductive TemplateError where
  | lexical (error : LexicalError)
  | parse (error : ParseError)
  | context (error : ContextError)
  deriving DecidableEq, Repr

def LexicalError.message : LexicalError → String
  | .unterminatedDirective terminator =>
    "Directive is never closed, expected '" ++ String.singleton terminator ++
      "' before the end of the template"

def ParseError.message : ParseError → String
  | .unterminatedBlock opener expected =>
    "Block '" ++ opener ++ "' is never closed, expected " ++ expected
  | .malformedDirective content =>
    "Directive '" ++ content ++ "' is malformed, expected it to end with ')'"

def ContextError.message : ContextError → String
  | .unreadableFile path message => "Unable to read '" ++ path ++ "': " ++ message
  | .unsupportedFormat path =>
    "Unsupported data file '" ++ path ++ "', expected a .json or .toml file"
  | .invalidData path message => "Data in '" ++ path ++ "' is invalid: " ++ message
  | .notAMapping path => "Data in '" ++ path ++ "' must be a mapping at the top level"
  | .invalidAssignment text =>
    "Invalid assignment '" ++ text ++ "', should be formatted as KEY=VALUE"

namespace TemplateError

/-- The kind of an error, as messages and reports name it. -/
def kind : TemplateError → String
  | .lexical _ => "LexicalError"
  | .parse _ => "ParseError"
  | .context _ => "ContextError"

/-- The message without its kind. -/
def detail : TemplateError → String
  | .lexical error => error.message
  | .parse error => error.message
  | .context error => error.message

def message (error : TemplateError) : String := error.kind ++ ": " ++ error.detail

end TemplateError
end Stencil
