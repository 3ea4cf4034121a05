import Stencil.Json.Basic
import Stencil.Token.Basic

namespace Stencil.Token

def toJson (t : Token) : Json := .tagged t.kind (.string t.content)

def ofJson? : Json → Option Token
  | .object [("Plain", .string text)] => some (plain text)
  | .object [("Directive", .string content)] => some (directive content)
  | _ => none

end Stencil.Token
