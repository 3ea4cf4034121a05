import Stencil.Text.Cut

namespace Stencil

inductive FileError where
  | notFound
  | notADirectory
  | isADirectory
  | notText
  /-- What else an operating system may have to say. -/
  | other (message : String)
  deriving DecidableEq, Repr

def FileError.message : FileError → String
  | notFound => "No such file or directory (os error 2)"
  | notADirectory => "Not a directory (os error 20)"
  | isADirectory => "Is a directory (os error 21)"
  | notText => "stream did not contain valid UTF-8"
  | other message => message

/-- The names on a path. -/
def pathNames (path : String) : List String := (Text.split '/' path.toList).map String.ofList

/-- The text that bytes stand for. -/
def decodeText (content : ByteArray) : Except FileError String :=
  match String.fromUTF8? content with
  | some text => .ok text
  | none => .error .notText

/-- A file and the names on the way to it from the working directory. -/
structure File where
  place : List String
  content : ByteArray

/-- The files under a working directory. A directory is there if a file is below it. -/
structure Store where
  files : List File

namespace Store

/-- What stands at a place. -/
inductive Entry where
  | file (content : ByteArray)
  | directory
  | missing

def entry (s : Store) (place : List String) : Entry :=
  match s.files.find? (·.place == place) with
  | some file => .file file.content
  | none =>
    if place.isEmpty || s.files.any (fun file => place.isPrefixOf file.place) then .directory
    else .missing

/-- The place that names lead to from another one; outside of the working directory there are only
    directories. Every name but the last must be that of a directory. -/
def walk (s : Store) : Option (List String) → List String → Except FileError (Option (List String))
  | place, [] => .ok place
  | none, name :: rest =>
    if name = "" ∨ name = "." ∨ name = ".." then walk s none rest else .error .notFound
  | some place, name :: rest =>
    match s.entry place with
    | .file _ => .error .notADirectory
    | .missing => .error .notFound
    | .directory =>
      if name = "" ∨ name = "." then walk s (some place) rest
      else if name = ".." then
        walk s (if place.isEmpty then none else some place.dropLast) rest
      else walk s (some (place ++ [name])) rest

/-- Where a path starts. -/
def origin (path : String) : Option (List String) :=
  if path.toList.head? = some '/' then none else some []

def read (s : Store) (path : String) : Except FileError ByteArray :=
  if path.isEmpty then .error .notFound
  else
    match s.walk (origin path) (pathNames path) with
    | .error e => .error e
    | .ok none => .error .isADirectory
    | .ok (some place) =>
      match s.entry place with
      | .file content => .ok content
      | .directory => .error .isADirectory
      | .missing => .error .notFound

/-- Replaces the content of a file, or adds one. -/
def put (place : List String) (content : ByteArray) : List File → List File
  | [] => [⟨place, content⟩]
  | file :: rest =>
    if file.place = place then ⟨place, content⟩ :: rest else file :: put place content rest

/-- Writes a file. One that cannot be written leaves all as it was. -/
def write (s : Store) (path text : String) : Except FileError Store :=
  let names := pathNames path
  if path.isEmpty then .error .notFound
  else
    match s.walk (origin path) names.dropLast with
    | .error e => .error e
    | .ok place =>
      let name := names.getLast?.getD ""
      let isDirectory := name == "" || name == "." || name == ".."
      match place with
      | none => .error (if isDirectory then .isADirectory else .notFound)
      | some place =>
        match s.entry place with
        | .file _ => .error .notADirectory
        | .missing => .error .notFound
        | .directory =>
          if isDirectory then .error .isADirectory
          else match s.entry (place ++ [name]) with
            | .directory => .error .isADirectory
            | _ => .ok ⟨put (place ++ [name]) text.toUTF8 s.files⟩

end Store
end Stencil
