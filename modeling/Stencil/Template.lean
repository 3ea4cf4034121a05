import Stencil.Node.Parse
import Stencil.Node.Render
import Stencil.Options
import Stencil.Token.Stream

namespace Stencil

/-- A template that has been read, ready for any number of renderings. -/
structure Template where
  root : Node

namespace Template

def parse (options : Options) (source : String) : Except (Spanned TemplateError) Template :=
  match Token.ofSource options.sigil source with
  | .error e => .error (e.map .lexical)
  | .ok tokens =>
    match Node.parse tokens with
    | .error e => .error (e.map .parse)
    | .ok root => .ok ⟨root⟩

def render (t : Template) (data : Data) : String := t.root.render (.root data)

/-- Reads a template and renders it. -/
def renderSource (options : Options) (source : String) (data : Data) :
    Except (Spanned TemplateError) String :=
  (parse options source).map (render · data)

end Template
end Stencil
