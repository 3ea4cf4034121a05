import Stencil.Error
import Stencil.Json.OfValue
import Stencil.Json.Reader
import Stencil.Store
import Stencil.Toml.Reader

namespace Stencil

/-- What a data file is written in. -/
inductive Format where
  | json
  | toml
  deriving DecidableEq, Repr

namespace Format

/-- The last name on a path, if it is one of a file. -/
def fileName? (path : String) : Option String :=
  match ((pathNames path).filter fun name => name != "" && name != ".").getLast? with
  | some ".." => none
  | name => name

/-- What follows the last dot of a name, if something precedes that dot. -/
def extension? (name : String) : Option String :=
  match Text.cut? '.' name.toList.reverse with
  | some (extension, _ :: _) => some (String.ofList extension.reverse)
  | _ => none

def ofPath? (path : String) : Option Format := do
  match ← extension? (← fileName? path) with
  | "json" => some json
  | "toml" => some toml
  | _ => none

/-- The value that a text holds, or what is wrong with the text. -/
def decode (format : Format) (text : String) : Except String Value :=
  match format with
  | json =>
    match (Json.read text).bind Value.ofJson? with
    | some v => .ok v
    | none => .error "not a JSON document"
  | toml =>
    match Toml.read text with
    | some data => .ok (.map data)
    | none => .error "not a TOML document"

end Format

/-- Loads a map from a file. `read` is how files are read. -/
def Data.load (read : String → Except FileError ByteArray) (path : String) :
    Except ContextError Data :=
  match Format.ofPath? path with
  | none => .error (.unsupportedFormat path)
  | some format =>
    match (read path).bind decodeText with
    | .error e => .error (.unreadableFile path e.message)
    | .ok text =>
      match format.decode text with
      | .error message => .error (.invalidData path message)
      | .ok (.map data) => .ok data
      | .ok _ => .error (.notAMapping path)

end Stencil
