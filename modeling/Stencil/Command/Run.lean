import Stencil.Command.Guide
import Stencil.Data.Load
import Stencil.Json.OfDiagnosis
import Stencil.Json.OfNode
import Stencil.Json.Writer
import Stencil.Report
import Stencil.Template

namespace Stencil

/-- What a command has to say and to write. -/
structure Reply where
  code : UInt32 := 0
  stdout : String := ""
  stderr : String := ""
  /-- A file to write, and its text. -/
  output : Option (String × String) := none
  deriving DecidableEq

namespace Reply

def failure (message : String) : Reply := { code := 1, stderr := message }

/-- How a failure to write is reported. -/
def unwritable (path : String) (e : FileError) : Reply :=
  failure ("Unable to write '" ++ path ++ "': " ++ e.message ++ "\n")

end Reply

namespace Command

/-- How a template is called in reports. -/
def displayName (path : String) : String := if path = "-" then "<stdin>" else path

def failReport (path source : String) (e : Spanned TemplateError) : String :=
  Report.ofErrors (displayName path) source [e]

/-- Data files are read in order, up to the first that fails. -/
def loadAll (read : String → Except FileError ByteArray) : List String → Except ContextError (List Data)
  | [] => .ok []
  | path :: rest => do return (← Data.load read path) :: (← loadAll read rest)

/-- Renders a source: data first, then the template. -/
def render (read : String → Except FileError ByteArray) (command : Command) (source : String)
    (files : List String) (assignments : List Assignment) (output : Option String) : Reply :=
  match loadAll read files with
  | .error e => .failure ((TemplateError.context e).message ++ "\n")
  | .ok maps =>
    let data := Data.assign (Data.merge maps) assignments
    match Template.renderSource command.options source data with
    | .error e => .failure (failReport command.path source e)
    | .ok text =>
      match output with
      | none => { stdout := text }
      | some path => { output := some (path, text) }

/-- Lists tokens up to the first error. -/
def listTokens (command : Command) (source : String) : Reply :=
  let items := (TokenStream.start command.options.sigil source).items
  let tokens := items.filterMap fun item => item.toOption.map (·.value)
  match collect items with
  | .ok _ => { stdout := Token.listing tokens }
  | .error e =>
    { code := 1, stdout := Token.listing tokens
      stderr := failReport command.path source (e.map .lexical) }

def showTree (command : Command) (source : String) : Reply :=
  match Template.parse command.options source with
  | .error e => .failure (failReport command.path source e)
  | .ok t => { stdout := t.root.toJson.pretty ++ "\n" }

def check (command : Command) (source : String) : Reply :=
  let errors := match Template.parse command.options source with
    | .error e => [e]
    | .ok _ => []
  let listing := (Json.array ((Diagnosis.ofErrors source errors).map Diagnosis.toJson)).pretty ++ "\n"
  if errors.isEmpty then { stdout := listing }
  else { code := 1, stdout := listing, stderr := "Invalid template\n" }

/-- The template of a command. -/
def source (read : String → Except FileError ByteArray) (stdin : ByteArray) (command : Command) :
    Except FileError String :=
  (if command.path = "-" then .ok stdin else read command.path).bind decodeText

/-- Carries out a command, up to writing its output. -/
def reply (read : String → Except FileError ByteArray) (stdin : ByteArray) (command : Command) : Reply :=
  match command.source read stdin with
  | .error e =>
    .failure ("Unable to read template '" ++ command.path ++ "': " ++ e.message ++ "\n")
  | .ok source =>
    match command.task with
    | .render files assignments output => command.render read source files assignments output
    | .tokens => command.listTokens source
    | .tree => command.showTree source
    | .check => command.check source

/-- The files that a command may read. -/
def inputs (command : Command) : List String :=
  (if command.path = "-" then [] else [command.path]) ++
    match command.task with
    | .render files _ _ => files
    | _ => []

end Command

/-- What a run of the command leaves behind. -/
structure Outcome where
  code : UInt32
  stdout : String
  stderr : String
  store : Store

namespace Outcome

/-- The outcome of arguments that are wrong. -/
def usage (e : UsageError) (store : Store) : Outcome := ⟨2, "", "error: " ++ e.message ++ "\n", store⟩

/-- Writes what a reply asks for. -/
def ofReply (r : Reply) (store : Store) : Outcome :=
  match r.output with
  | none => ⟨r.code, r.stdout, r.stderr, store⟩
  | some (path, text) =>
    match store.write path text with
    | .ok store => ⟨r.code, r.stdout, r.stderr, store⟩
    | .error e => let r := Reply.unwritable path e; ⟨r.code, r.stdout, r.stderr, store⟩

/-- Runs the command on a store of files. A guide has a text on each topic. -/
def run (arguments : List String) (stdin : ByteArray) (store : Store)
    (guide : Topic → String := Topic.text) : Outcome :=
  match Command.ofArguments arguments with
  | .error (.about topic) => ⟨0, guide topic, "", store⟩
  | .error (.usage e) => usage e store
  | .ok command => ofReply (command.reply store.read stdin) store

end Outcome
end Stencil
