import Stencil.Command.Run

namespace Stencil

/-- How the library sees a failure of the operating system. Codes come with either sign. -/
def fileError : IO.Error → FileError
  | .noFileOrDirectory .. => .notFound
  | .inappropriateType _ code details =>
    if code = 20 ∨ 0 - code = 20 then .notADirectory
    else if code = 21 ∨ 0 - code = 21 then .isADirectory
    else .other details
  | e => .other (toString e)

def readFile (path : String) : IO (Except FileError ByteArray) := do
  try return .ok (← IO.FS.readBinFile path)
  catch e => return .error (fileError e)

/-- Writes what a reply asks for. -/
def writeOutput (r : Reply) : IO Reply := do
  match r.output with
  | none => return r
  | some (path, text) =>
    try
      IO.FS.writeFile path text
      return r
    catch e => return .unwritable path (fileError e)

end Stencil

open Stencil

def main (arguments : List String) : IO UInt32 := do
  match Command.ofArguments arguments with
  | .error (.about topic) =>
    IO.print topic.text
    return 0
  | .error (.usage e) =>
    IO.eprintln ("error: " ++ e.message)
    return 2
  | .ok command =>
    let stdin ← if command.path = "-" then (← IO.getStdin).readBinToEnd else pure .empty
    let mut files := []
    for path in command.inputs do
      files := (path, ← readFile path) :: files
    let read path := (files.lookup path).getD (.error .notFound)
    let reply ← writeOutput (command.reply read stdin)
    IO.print reply.stdout
    IO.eprint reply.stderr
    return reply.code
