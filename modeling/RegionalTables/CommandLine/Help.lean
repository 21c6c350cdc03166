import RegionalTables.CommandLine.Arguments

/-! The help page of each command. -/
namespace RegionalTables.CommandLine

structure HelpPage where
  about : String
  usage : String
  commands : List (String × String) := []
  arguments : List (String × String) := []
  options : List (String × String) := []

def programName : String := "tabular"
def version : String := "0.1.0"
def versionText : String := programName ++ " " ++ version ++ "\n"

namespace HelpPage

/-- A name and its description, which starts in the same column for all names of a list. -/
def line (width : Nat) (item : String × String) : String :=
  "  " ++ item.1 ++ "".pushn ' ' (width - item.1.length + 2) ++ item.2 ++ "\n"

def list (title : String) (items : List (String × String)) : String :=
  if items.isEmpty then ""
  else
    let width := items.foldl (fun n item => max n item.1.length) 0
    "\n" ++ title ++ ":\n" ++ String.join (items.map (line width))

def text (p : HelpPage) : String :=
  p.about ++ "\n\nUsage: " ++ p.usage ++ "\n" ++ list "Commands" p.commands ++
    list "Arguments" p.arguments ++ list "Options" p.options

end HelpPage

namespace Place

def about : Place → String
  | top => "Tabular - query regional statistics as CSV, TSV or JSON tables"
  | query => "Answer a query and print the rendered table"
  | filter => "Print the search body a query compiles to"
  | validate => "Validate a query and print its canonical form and cache keys"
  | cache => "Inspect or clear the SQLite result cache"
  | stats => "Show entry counts and size"
  | clear => "Remove every entry"
  | help | cacheHelp => "Print this message or the help of the given subcommand(s)"

def usage : Place → String
  | top => "tabular [OPTIONS] <COMMAND>"
  | query => "tabular query [OPTIONS] <QUERY>"
  | filter => "tabular filter [OPTIONS] <QUERY>"
  | validate => "tabular validate [OPTIONS] <QUERY>"
  | cache => "tabular cache [OPTIONS] <COMMAND>"
  | stats => "tabular cache stats [OPTIONS]"
  | clear => "tabular cache clear [OPTIONS]"
  | help => "tabular help [COMMAND]..."
  | cacheHelp => "tabular cache help [COMMAND]..."

def argumentLines : Place → List (String × String)
  | query => [("<QUERY>", "URL query string, e.g. 'data=12411:BEVSTD&region=11'")]
  | filter | validate => [("<QUERY>", "URL query string")]
  | help | cacheHelp => [("[COMMAND]...", "Print help for the subcommand(s)")]
  | _ => []

def switchLines : Place → List (String × String)
  | query => [("    --debug", "Print the cleaned query, search body and every output format"),
      ("    --no-cache", "Neither read nor write the result cache")]
  | _ => []

def configLines (place : Place) : List (String × String) :=
  if place.explains then []
  else [("-c, --config <CONFIG>", "Path to a tabular.toml (overrides the default search)")]

def helpLines (place : Place) : List (String × String) :=
  if place.explains then [] else [("-h, --help", "Print help")]

def versionLines : Place → List (String × String)
  | top => [("-V, --version", "Print version")]
  | _ => []

def helpPage (place : Place) : HelpPage where
  about := place.about
  usage := place.usage
  commands := place.below.map fun c => (c.1, c.2.about)
  arguments := place.argumentLines
  options := place.configLines ++ place.switchLines ++ place.helpLines ++ place.versionLines

end Place

end RegionalTables.CommandLine
