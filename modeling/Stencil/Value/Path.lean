import Stencil.Text.Cut
import Stencil.Value.Basic

namespace Stencil

/-- A dotted path names one key per segment; segments may be empty. -/
def segments (path : String) : List String := (Text.split '.' path.toList).map String.ofList

namespace Value

/-- Descends through nested maps. -/
def get? : List String → Value → Option Value
  | [], v => some v
  | k :: ks, map entries =>
    match Map.get? k entries with
    | some v => get? ks v
    | none => none
  | _ :: _, _ => none

/-- Puts `new` at a place below a value. What stands in the way and is not a map becomes one. -/
def insert : List String → Value → Value → Value
  | [], new, _ => new
  | k :: ks, new, v => map (Map.alter k (fun old => insert ks new (old.getD null)) v.entries)

def insertPath (path : String) (new v : Value) : Value := insert (segments path) new v

end Value
end Stencil
