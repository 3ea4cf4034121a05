import Stencil.Error
import Stencil.Json.Basic

namespace Stencil
open Json (tagged required)

namespace LexicalError

def toJson : LexicalError → Json
  | unterminatedDirective terminator =>
    tagged "UnterminatedDirective"
      (.object [("terminator", .string (String.singleton terminator))])

def ofJson? : Json → Option LexicalError
  | .object [("UnterminatedDirective", body)] => do
    let fields ← body.fields? ["terminator"]
    return unterminatedDirective (← (← required "terminator" fields).char?)
  | _ => none

end LexicalError

namespace ParseError

def toJson : ParseError → Json
  | unterminatedBlock opener expected =>
    tagged "UnterminatedBlock"
      (.object [("opener", .string opener), ("expected", .string expected)])
  | malformedDirective content => tagged "MalformedDirective" (.string content)

def ofJson? : Json → Option ParseError
  | .object [("UnterminatedBlock", body)] => do
    let fields ← body.fields? ["opener", "expected"]
    let opener ← (← required "opener" fields).string?
    return unterminatedBlock opener (← (← required "expected" fields).string?)
  | .object [("MalformedDirective", .string content)] => some (malformedDirective content)
  | _ => none

end ParseError

namespace ContextError

def toJson : ContextError → Json
  | unreadableFile path message =>
    tagged "UnreadableFile" (.object [("path", .string path), ("message", .string message)])
  | unsupportedFormat path => tagged "UnsupportedFormat" (.string path)
  | invalidData path message =>
    tagged "InvalidData" (.object [("path", .string path), ("message", .string message)])
  | notAMapping path => tagged "NotAMapping" (.string path)
  | invalidAssignment text => tagged "InvalidAssignment" (.string text)

/-- The two fields of an error about a file. -/
def pathAndMessage? (body : Json) : Option (String × String) := do
  let fields ← body.fields? ["path", "message"]
  let path ← (← required "path" fields).string?
  return (path, ← (← required "message" fields).string?)

def ofJson? : Json → Option ContextError
  | .object [("UnreadableFile", body)] =>
    (pathAndMessage? body).map fun (path, message) => unreadableFile path message
  | .object [("UnsupportedFormat", .string path)] => some (unsupportedFormat path)
  | .object [("InvalidData", body)] =>
    (pathAndMessage? body).map fun (path, message) => invalidData path message
  | .object [("NotAMapping", .string path)] => some (notAMapping path)
  | .object [("InvalidAssignment", .string text)] => some (invalidAssignment text)
  | _ => none

end ContextError

namespace TemplateError

def toJson : TemplateError → Json
  | lexical e => tagged "LexicalError" e.toJson
  | parse e => tagged "ParseError" e.toJson
  | context e => tagged "ContextError" e.toJson

def ofJson? : Json → Option TemplateError
  | .object [("LexicalError", body)] => (LexicalError.ofJson? body).map lexical
  | .object [("ParseError", body)] => (ParseError.ofJson? body).map parse
  | .object [("ContextError", body)] => (ContextError.ofJson? body).map context
  | _ => none

end TemplateError
end Stencil
