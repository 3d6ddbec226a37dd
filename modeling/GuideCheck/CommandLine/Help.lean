import GuideCheck.CommandLine.Request

set_option autoImplicit false

/-! # Help texts -/

namespace GuideCheck.CommandLine

def programName : String := "dotguide"

def version : String := "0.1.0"

def Topic.usage : Topic → String
  | program => s!"Usage: {programName} [OPTIONS] <COMMAND>"
  | check => s!"Usage: {programName} check [OPTIONS] [PATHS]..."
  | browse => s!"Usage: {programName} browse [OPTIONS] [FOLDER]"
  | help => s!"Usage: {programName} help [COMMAND]..."

def Topic.about : Topic → String
  | program => "Checks dot-directive guide documents before they are posted to Discord"
  | check => "Report problems in guide files"
  | browse => "Browse a folder of guides and their diagnostics in the terminal"
  | help => "Print this message or the help of the given subcommand(s)"

/-- What may follow the program or a command. -/
def Topic.details : Topic → List String
  | program =>
    ["Commands:",
      "  check   " ++ check.about,
      "  browse  " ++ browse.about,
      "  help    " ++ help.about,
      "",
      "Options:",
      "  -v, --verbose  Show debug logging",
      "  -h, --help     Print help",
      "  -V, --version  Print version"]
  | check =>
    ["Arguments:",
      "  [PATHS]...  Guide files or folders to scan (defaults to the configured guides folder)",
      "",
      "Options:",
      "  -f, --format <FORMAT>  Output format: text or json",
      "  -v, --verbose          Show debug logging",
      "  -h, --help             Print help"]
  | browse =>
    ["Arguments:",
      "  [FOLDER]  Guides folder (defaults to the configured guides folder)",
      "",
      "Options:",
      "  -v, --verbose  Show debug logging",
      "  -h, --help     Print help"]
  | help =>
    ["Arguments:",
      "  [COMMAND]...  Print help for the subcommand(s)"]

/-- The help on a topic. -/
def Topic.text (topic : Topic) : String :=
  terminated ([topic.about, "", topic.usage, ""] ++ topic.details)

end GuideCheck.CommandLine
