import Stencil.Data.Assignment
import Stencil.Options

namespace Stencil

/-- What the command is asked to do with the template at a path. -/
inductive Task where
  | render (data : List String) (assignments : List Assignment) (output : Option String)
  | tokens
  | tree
  | check

structure Command where
  task : Task
  /-- Where the template is; `-` stands for standard input. -/
  path : String
  options : Options

/-- What is wrong with arguments. -/
inductive UsageError where
  | noCommand
  | unknownCommand (name : String)
  | unknownOption (option : String)
  | missingValue (option : String)
  | invalidValue (option value : String)
  | repeatedOption (option : String)
  | extraArgument (argument : String)
  | noPath
  deriving DecidableEq, Repr

def UsageError.message : UsageError → String
  | noCommand => "a command is required: render, tokens, ast or check"
  | unknownCommand name => "unknown command '" ++ name ++ "'"
  | unknownOption option => "unexpected option '" ++ option ++ "'"
  | missingValue option => "option '" ++ option ++ "' needs a value"
  | invalidValue option value => "invalid value '" ++ value ++ "' for option '" ++ option ++ "'"
  | repeatedOption option => "option '" ++ option ++ "' can be given only once"
  | extraArgument argument => "unexpected argument '" ++ argument ++ "'"
  | noPath => "the path of a template is required"

/-- What arguments can ask about. -/
inductive Topic where
  | program
  | render
  | tokens
  | tree
  | check
  | help
  | version
  deriving DecidableEq, Repr

/-- Topics that can be named. -/
def Topic.ofName? : String → Option Topic
  | "render" => some render
  | "tokens" => some tokens
  | "ast" => some tree
  | "check" => some check
  | "help" => some help
  | _ => none

/-- Why arguments make no command. -/
inductive Interruption where
  | about (topic : Topic)
  | usage (e : UsageError)
  deriving DecidableEq, Repr

/-- The options of commands. Each takes a value. -/
inductive Flag where
  | data
  | var
  | sigil
  | output
  deriving DecidableEq, Repr

namespace Flag

def name : Flag → String
  | data => "--data"
  | var => "--var"
  | sigil => "--sigil"
  | output => "--output"

def ofLong? : List Char → Option Flag
  | ['d', 'a', 't', 'a'] => some data
  | ['v', 'a', 'r'] => some var
  | ['s', 'i', 'g', 'i', 'l'] => some sigil
  | ['o', 'u', 't', 'p', 'u', 't'] => some output
  | _ => none

def ofShort? : Char → Option Flag
  | 'd' => some data
  | 'V' => some var
  | 'o' => some output
  | _ => none

end Flag

/-- What an argument is by its form. -/
inductive Argument where
  /-- `--`: only positional arguments follow. -/
  | terminator
  /-- `--help`, or `-h` with anything behind the letter. -/
  | help
  /-- A name after two dashes or a letter after one, and the value if it is attached. -/
  | option (flag : Option Flag) (value : Option String)
  | positional

namespace Argument

/-- A value follows a letter at once or after an equals sign. -/
def attached : List Char → Option String
  | [] => none
  | '=' :: value => some (String.ofList value)
  | value => some (String.ofList value)

/-- A dash alone is no option. -/
def read : List Char → Argument
  | ['-', '-'] => terminator
  | '-' :: '-' :: long =>
    match Text.cut? '=' long with
    | some (name, value) => option (Flag.ofLong? name) (some (String.ofList value))
    | none => if long = ['h', 'e', 'l', 'p'] then help else option (Flag.ofLong? long) none
  | '-' :: 'h' :: _ => help
  | '-' :: letter :: rest => option (Flag.ofShort? letter) (attached rest)
  | _ => positional

end Argument

/-- What has been read of a command's arguments. -/
structure Settings where
  path : Option String := none
  data : List String := []
  assignments : List Assignment := []
  sigil : Option Char := none
  output : Option String := none

namespace Settings

/-- Takes an option's value. Paths must not be empty, a sigil is one character. -/
def set (s : Settings) (flag : Flag) (value : String) : Except Interruption Settings :=
  let invalid := Except.error (Interruption.usage (.invalidValue flag.name value))
  let repeated := Except.error (Interruption.usage (.repeatedOption flag.name))
  match flag with
  | .data => if value.isEmpty then invalid else .ok { s with data := s.data ++ [value] }
  | .var =>
    match Assignment.parse value with
    | .ok a => .ok { s with assignments := s.assignments ++ [a] }
    | .error _ => invalid
  | .sigil =>
    match value.toList with
    | [c] => if s.sigil.isSome then repeated else .ok { s with sigil := some c }
    | _ => invalid
  | .output =>
    if value.isEmpty then invalid
    else if s.output.isSome then repeated
    else .ok { s with output := some value }

def setPath (s : Settings) (path : String) : Except Interruption Settings :=
  match s.path with
  | none => .ok { s with path := some path }
  | some _ => .error (.usage (.extraArgument path))

/-- Reads arguments that can only be positional. -/
def readPositional (s : Settings) : List String → Except Interruption Settings
  | [] => .ok s
  | argument :: rest => do readPositional (← s.setPath argument) rest

/-- Reads the arguments of a command that takes certain options. One that asks for help ends the
    reading. -/
def read (topic : Topic) (takes : Flag → Bool) (s : Settings) :
    List String → Except Interruption Settings
  | [] => .ok s
  | argument :: rest =>
    match Argument.read argument.toList with
    | .terminator => readPositional s rest
    | .help => .error (.about topic)
    | .positional => do read topic takes (← s.setPath argument) rest
    | .option none _ => .error (.usage (.unknownOption argument))
    | .option (some flag) attached =>
      if !takes flag then .error (.usage (.unknownOption argument))
      else match attached with
        | some value => do read topic takes (← s.set flag value) rest
        | none =>
          match rest with
          | [] => .error (.usage (.missingValue flag.name))
          | value :: rest =>
            match Argument.read value.toList with
            | .positional => do read topic takes (← s.set flag value) rest
            | _ => .error (.usage (.missingValue flag.name))

end Settings

/-- Whether it is `--version`, or `-V` with anything behind the letter. -/
def asksVersion : List Char → Bool
  | '-' :: 'V' :: _ => true
  | argument => argument == ['-', '-', 'v', 'e', 'r', 's', 'i', 'o', 'n']

namespace Interruption

/-- The topic that is named after `help`, or the program. Nothing follows the name. -/
def ofHelp : List String → Interruption
  | [] => about .program
  | name :: rest =>
    match Topic.ofName? name, rest with
    | some topic, [] => about topic
    | some _, other :: _ => usage (.unknownCommand other)
    | none, _ => usage (.unknownCommand name)

/-- What stands where a command is named, and names none. -/
def ofName (name : String) : Interruption :=
  if asksVersion name.toList then about .version
  else match Argument.read name.toList with
    | .help => about .program
    | .positional => usage (.unknownCommand name)
    | _ => usage (.unknownOption name)

end Interruption

namespace Command

def ofSettings (task : Settings → Task) (s : Settings) : Except Interruption Command :=
  match s.path with
  | none => .error (.usage .noPath)
  | some path => .ok ⟨task s, path, { sigil := s.sigil.getD ({} : Options).sigil }⟩

/-- The command that arguments stand for. Only rendering takes data, assignments and an output. -/
def ofArguments : List String → Except Interruption Command
  | [] => .error (.usage .noCommand)
  | name :: rest =>
    let other (topic : Topic) (task : Task) : Except Interruption Command := do
      ofSettings (fun _ => task) (← Settings.read topic (· == .sigil) {} rest)
    match name with
    | "render" => do
      ofSettings (fun s => .render s.data s.assignments s.output)
        (← Settings.read .render (fun _ => true) {} rest)
    | "tokens" => other .tokens .tokens
    | "ast" => other .tree .tree
    | "check" => other .check .check
    | "help" => .error (.ofHelp rest)
    | name => .error (.ofName name)

end Command
end Stencil
