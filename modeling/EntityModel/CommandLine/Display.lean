import EntityModel.CommandLine.Arguments
import EntityModel.Log
import EntityModel.Report

/-! # What a run shows

The lines that a run shows: log records down to the level asked for, the reports of a failure, and
what is said of a command line that is none.

* `readLevel?`      the level that a word asks for
* `exitCode`        how an unusable command line ends -/

namespace EntityModel.CommandLine

/-- The words for the levels down to which records are shown, with the place of each. -/
def levelWords : List (String × Nat) :=
  [("off", 0), ("error", 1), ("warn", 2), ("info", 3), ("debug", 4), ("trace", 5)]

/-- The place of the level that a word asks for, in any case. -/
def readLevel? (word : String) : Option Nat :=
  levelWords.lookup (String.ofList (word.toList.map Char.toLower))

/-- A record on one line. -/
def recordLine (r : Record) : String :=
  "[" ++ r.level.text ++ "] " ++ r.message ++
    String.join (r.fields.map fun f => " " ++ f.1 ++ "=" ++ f.2)

/-- A label on one line. -/
def labelLine (l : Label) : String :=
  "  at " ++ toString l.span.start ++ ".." ++ toString l.span.stop ++ ": " ++ l.text

/-- The code of a report in brackets, if it has one. -/
def codeText (r : Report) : String :=
  match r.code with
  | some code => "[" ++ code ++ "]"
  | none => ""

/-- The lines of a report: message, labels, hint. -/
def reportLines (r : Report) : List String :=
  (r.severity.text ++ codeText r ++ ": " ++ r.message) :: r.labels.map labelLine ++
    (r.help.map fun help => "  help: " ++ help).toList

/-- How the program is called. -/
def usage : String :=
  "Usage: edmgen [OPTIONS] <INPUT>\n\n" ++
    "  -o, --output <OUTPUT>        pattern for the paths of the generated files\n" ++
    "  -c, --config <CONFIG>        path of the settings file\n" ++
    "      --set <KEY=VALUE>        give a setting by name\n" ++
    "      --log-level <LOG_LEVEL>  off, error, warn, info, debug or trace\n" ++
    "  -h, --help                   show this\n" ++
    "  -V, --version                show the version"

/-- The version of the program. -/
def version : String := "edmgen 0.1.0"

/-- What is shown of a command line that is none. -/
def faultText : ArgumentFault → String
  | .displayHelp => usage
  | .displayVersion => version
  | .missingInput => "error: the path of the model is missing\n\n" ++ usage
  | .unknownArgument word => "error: unexpected argument '" ++ word ++ "'\n\n" ++ usage
  | .repeatedOption => "error: an option is given more than once\n\n" ++ usage
  | .missingValue => "error: an option lacks its value\n\n" ++ usage
  | .unexpectedValue => "error: an option has a value that takes none\n\n" ++ usage
  | .invalidSetting word reason =>
    ((ArgumentFault.invalidSetting word reason).message?).getD "" ++ "\n\n" ++ usage

/-- How a run ends whose command line is none: well, if only a text was asked for. -/
def exitCode : ArgumentFault → UInt32
  | .displayHelp => 0
  | .displayVersion => 0
  | _ => 2

end EntityModel.CommandLine
