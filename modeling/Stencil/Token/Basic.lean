namespace Stencil

inductive Token where
  /-- Text that is written as it stands. -/
  | plain (text : String)
  /-- What stands between two sigils (trimmed) or in curly brackets (raw). -/
  | directive (content : String)
  deriving DecidableEq, Repr

namespace Token

def content : Token → String
  | .plain text => text
  | .directive content => content

def kind : Token → String
  | .plain _ => "Plain"
  | .directive _ => "Directive"

/-- Backslash, quote, tab and newline get a backslash in a listing. -/
def escape : Char → List Char
  | '\\' => ['\\', '\\']
  | '"' => ['\\', '"']
  | '\t' => ['\\', 't']
  | '\n' => ['\\', 'n']
  | c => [c]

/-- One line for a token. -/
def label (t : Token) : String :=
  t.kind ++ "<" ++ String.ofList (t.content.toList.flatMap escape) ++ ">"

/-- A line for each token, in order. -/
def listing : List Token → String
  | [] => ""
  | t :: ts => t.label ++ "\n" ++ listing ts

end Token
end Stencil
