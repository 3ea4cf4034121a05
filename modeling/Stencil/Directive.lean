import Stencil.Error

namespace Stencil

/-- What a directive's content means. -/
inductive Directive where
  | ifBlock (condition : String)
  | elseIf (condition : String)
  | otherwise
  | endIf
  | forBlock (source : String)
  | sep
  | endFor
  | lookup (path : String)
  deriving DecidableEq, Repr

namespace Directive

/-- What follows the opening parenthesis of `if(`, `elseif(` and `for(`, and what it is an argument of. -/
def block? : List Char → Option ((String → Directive) × List Char)
  | 'i' :: 'f' :: '(' :: rest => some (ifBlock, rest)
  | 'e' :: 'l' :: 's' :: 'e' :: 'i' :: 'f' :: '(' :: rest => some (elseIf, rest)
  | 'f' :: 'o' :: 'r' :: '(' :: rest => some (forBlock, rest)
  | _ => none

/-- A text without the parenthesis that it ends in. -/
def argument? (cs : List Char) : Option (List Char) :=
  if cs.getLast? = some ')' then some cs.dropLast else none

/-- A keyword has to fill its directive; whatever is neither a keyword nor a block is a path. -/
def word : String → Directive
  | "else" => otherwise
  | "endif" => endIf
  | "sep" => sep
  | "endfor" => endFor
  | path => lookup path

def classify (content : String) : Except ParseError Directive :=
  match block? content.toList with
  | some (block, rest) =>
    match argument? rest with
    | some argument => .ok (block (String.ofList argument))
    | none => .error (.malformedDirective content)
  | none => .ok (word content)

end Directive
end Stencil
