import Stencil.Command.Arguments

namespace Stencil

/-- A part of a page: what there is, and what it is for. -/
structure Table where
  title : String
  rows : List (String × String)

namespace Table

/-- The right column starts two blanks behind the widest entry of the left one. -/
def text (t : Table) : String :=
  let width := t.rows.foldl (fun width row => max width row.1.length) 0
  let line (row : String × String) :=
    "  " ++ row.1 ++ String.ofList (List.replicate (width + 2 - row.1.length) ' ') ++ row.2 ++ "\n"
  t.title ++ ":\n" ++ String.join (t.rows.map line)

def path : Table := ⟨"Arguments", [("<PATH>", "Path to template, use - to read from stdin")]⟩

def help : String × String := ("-h, --help", "Print help")

/-- Stands a short option's width further in, as it has none. -/
def sigil : String × String :=
  ("    --sigil <SIGIL>", "Character that opens and closes directives [default: $]")

end Table

namespace Topic

def summary : Topic → String
  | program => "Command to render and inspect templates"
  | render => "Render a template against context data"
  | tokens => "List the tokens in a template"
  | tree => "Produce a syntax tree for a template"
  | check => "Check a template for errors"
  | help => "Print this message or the help of the given subcommand(s)"
  | version => "Print version"

/-- A page on the program or on one of its commands, with an empty line in front of each part. -/
def page (topic : Topic) (form : String) (tables : List Table) : String :=
  topic.summary ++ "\n\nUsage: dollar " ++ form ++ "\n" ++
    String.join (tables.map fun t => "\n" ++ t.text)

def text : Topic → String
  | program => page program "<COMMAND>"
      [⟨"Commands", [("render", render.summary), ("tokens", tokens.summary), ("ast", tree.summary),
          ("check", check.summary), ("help", help.summary)]⟩,
        ⟨"Options", [Table.help, ("-V, --version", version.summary)]⟩]
  | render => page render "render [OPTIONS] <PATH>"
      [Table.path,
        ⟨"Options", [("-d, --data <DATA>", "Load context data from a JSON or TOML file, later files win"),
          ("-V, --var <VARS>", "Set a context value, dotted keys assign in to nested mappings"),
          Table.sigil, ("-o, --output <OUTPUT>", "Write output to a file instead of stdout"),
          Table.help]⟩]
  | tokens => page tokens "tokens [OPTIONS] <PATH>" [Table.path, ⟨"Options", [Table.sigil, Table.help]⟩]
  | tree => page tree "ast [OPTIONS] <PATH>" [Table.path, ⟨"Options", [Table.sigil, Table.help]⟩]
  | check => page check "check [OPTIONS] <PATH>" [Table.path, ⟨"Options", [Table.sigil, Table.help]⟩]
  | help => page help "help [COMMAND]..."
      [⟨"Arguments", [("[COMMAND]...", "Print help for the subcommand(s)")]⟩]
  | version => "dollar 0.1.0\n"

end Topic
end Stencil
