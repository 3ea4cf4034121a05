import Stencil.Value.Basic

namespace Stencil.Toml

/-- What stands under a key while a document is read. -/
inductive Item where
  /-- A finished value. Nothing can be added to it. -/
  | value (v : Value)
  /-- A table. It is implicit until a header defines it, and dotted if a dotted key made it. -/
  | table (implicit dotted : Bool) (entries : List (String × Item))
  /-- The tables of an array, each with a header of its own. -/
  | tables (elements : List (List (String × Item)))

abbrev Entries := List (String × Item)

namespace Entries

/-- Changes what stands under a key; a new key goes to the end. -/
def modify (key : String) (f : Option Item → Option Item) : Entries → Option Entries
  | [] => (f none).map fun item => [(key, item)]
  | (k, item) :: rest =>
    if k = key then (f (some item)).map fun item => (k, item) :: rest
    else (modify key f rest).map ((k, item) :: ·)

/-- Changes the last of the tables of an array. -/
def modifyLast (f : Entries → Option Entries) : List Entries → Option (List Entries)
  | [] => none
  | [last] => (f last).map ([·])
  | first :: rest => (modifyLast f rest).map (first :: ·)

/-- Goes down the keys of a header, through the last table of an array, and makes the tables that
    are missing. -/
def within (f : Entries → Option Entries) : List String → Entries → Option Entries
  | [], entries => f entries
  | key :: keys, entries =>
    modify key (fun
      | none => (within f keys []).map (.table true false)
      | some (.value _) => none
      | some (.table implicit dotted sub) => (within f keys sub).map (.table implicit dotted)
      | some (.tables elements) => (modifyLast (within f keys) elements).map .tables) entries

/-- Puts a value under a dotted key. The tables on the way must have been made by dotted keys, none
    may have a header, and the last key must be new. -/
def insert (key : String) (v : Value) : List String → Entries → Option Entries
  | [], entries =>
    modify key (fun
      | none => some (.value v)
      | some _ => none) entries
  | outer :: keys, entries =>
    modify outer (fun
      | none => (insert key v keys []).map (.table true true)
      | some (.table true dotted sub) =>
        if keys.isEmpty && !dotted then none
        else (insert key v keys sub).map (.table true dotted)
      | some (.tables elements) =>
        if keys.isEmpty then none else (modifyLast (insert key v keys) elements).map .tables
      | some _ => none) entries

/-- Starts a table: it must be new, or have been made only to hold others. -/
def defineTable (key : String) : Entries → Option Entries :=
  modify key fun
    | none => some (.table false false [])
    | some (.table true false sub) => some (.table false false sub)
    | some _ => none

/-- Starts one more table of an array. -/
def appendTable (key : String) : Entries → Option Entries :=
  modify key fun
    | none => some (.tables [[]])
    | some (.tables elements) => some (.tables (elements ++ [[]]))
    | some _ => none

end Entries

mutual

def Item.toValue : Item → Value
  | .value v => v
  | .table _ _ entries => .map (Map.ofList (entryValues entries))
  | .tables elements => .list (tableValues elements)

def entryValues : List (String × Item) → List (String × Value)
  | [] => []
  | (key, item) :: rest => (key, item.toValue) :: entryValues rest

def tableValues : List (List (String × Item)) → List Value
  | [] => []
  | entries :: rest => .map (Map.ofList (entryValues entries)) :: tableValues rest

end

/-- The data that entries stand for. -/
def Entries.toData (entries : Entries) : Data := Map.ofList (entryValues entries)

/-- The parts of a document, in order. -/
inductive Statement where
  | blank
  | pair (path : List String) (key : String) (v : Value)
  | table (path : List String) (key : String)
  | element (path : List String) (key : String)

/-- Carries out statements; `header` is the table that pairs go to. -/
def run (header : List String) (entries : Entries) : List Statement → Option Entries
  | [] => some entries
  | .blank :: rest => run header entries rest
  | .pair path key v :: rest => do
    run header (← entries.within (·.insert key v path) header) rest
  | .table path key :: rest => do
    run (path ++ [key]) (← entries.within (·.defineTable key) path) rest
  | .element path key :: rest => do
    run (path ++ [key]) (← entries.within (·.appendTable key) path) rest

end Stencil.Toml
