namespace Stencil

/-- Entries by key, in ascending order of the keys. -/
abbrev Map (α : Type) := List (String × α)

namespace Map
variable {α : Type}

/-- Looks no further than where the key would stand. -/
def get? (k : String) : Map α → Option α
  | [] => none
  | (key, value) :: rest =>
    if k = key then some value else if k < key then none else get? k rest

/-- Puts what `f` makes of the entry at `k` in its place. -/
def alter (k : String) (f : Option α → α) : Map α → Map α
  | [] => [(k, f none)]
  | (key, value) :: rest =>
    if k = key then (key, f (some value)) :: rest
    else if k < key then (k, f none) :: (key, value) :: rest
    else (key, value) :: alter k f rest

def insert (k : String) (value : α) (m : Map α) : Map α := alter k (fun _ => value) m

/-- Of entries with equal keys the last one stays. -/
def ofList : List (String × α) → Map α :=
  List.foldl (fun m (key, value) => insert key value m) []

/-- Every key is below all that follow it. -/
def Ordered (m : Map α) : Prop := m.Pairwise fun a b => a.1 < b.1

end Map
end Stencil
