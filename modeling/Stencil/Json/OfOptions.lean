import Stencil.Json.Basic
import Stencil.Options

namespace Stencil.Options

def toJson (o : Options) : Json := .object [("sigil", .string (String.singleton o.sigil))]

/-- What is not set is as by default. -/
def ofJson? : Json → Option Options
  | .object fields => do
    match ← Json.optional "sigil" fields with
    | some j => j.char?.map fun c => ⟨c⟩
    | none => return {}
  | .array [] => some {}
  | .array [j] => j.char?.map fun c => ⟨c⟩
  | _ => none

end Stencil.Options
