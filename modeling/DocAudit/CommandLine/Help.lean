/-
  DocAudit.CommandLine.Help
  ─────────────────────────
  **WHAT IS PRINTED IN PLACE OF RUNNING A COMMAND.**

  The explanation of the command line is made from the list of flags, so no flag
  can be missing from it.  A command line that cannot be carried out is answered
  by one line that says why, and by where to find the explanation.
-/
import DocAudit.CommandLine.Flag

namespace DocAudit.CommandLine

/-! ## §1. The explanation. -/

def programName : Text := "cdoc-guard".toList

/-- The version of the program. -/
def versionText : Text := programName ++ " 0.1.0".toList

namespace Subcommand

/-- What a subcommand does. -/
def summary : Subcommand → Text
  | check => "Check C files for missing or inconsistent documentation".toList
  | stub => "Print the brace-stubbed skeleton handed to the declaration parser".toList
  | template => "Render a documentation template for a declared function".toList
  | format => "Print a declared function signature with aligned parameter columns".toList
  | init => "Generate a default configuration file".toList

/-- The paths that a subcommand takes. -/
def paths (s : Subcommand) : Text :=
  match Scope.arity (some s) with
  | .none => []
  | .one => " <FILE>".toList
  | .many => " [PATHS]...".toList

end Subcommand

namespace Flag

/-- The spellings of a flag, and a place for its value if it takes one. -/
def usage (f : Flag) : Text :=
  (match f.short? with
    | some c => ['-', c, ',', ' ']
    | none => [])
    ++ "--".toList ++ f.long ++ (if f.takesValue then " <VALUE>".toList else [])

/-- The flags of a scope that are not those of every scope. -/
def own (s : Scope) : List Flag := (ofScope s).filter (!everywhere.contains ·)

end Flag

/-- The lines on one subcommand. -/
def subcommandHelp (s : Subcommand) : List Text :=
  ("  ".toList ++ s.name ++ s.paths) :: ("      ".toList ++ s.summary)
    :: (Flag.own (some s)).map fun f => "      ".toList ++ f.usage

/-- The explanation of the command line. -/
def helpText : Text :=
  Text.join ['\n'] <|
    ["Check C declarations against their documentation comments".toList, [],
      "Usage: ".toList ++ programName ++ " [OPTIONS] <COMMAND>".toList, [], "Commands:".toList]
    ++ Subcommand.all.flatMap subcommandHelp
    ++ [[], "Options:".toList]
    ++ (Flag.ofScope none).map (fun f => "  ".toList ++ f.usage)
    ++ [[], "Exit codes:".toList,
      "  0 - All declarations documented consistently".toList,
      "  1 - Documentation diagnostics found".toList,
      "  2 - Configuration or runtime error".toList]

/-! ## §2. The answer. -/

namespace UsageError

/-- Whether the user asked for the answer. -/
def isAnswer (e : UsageError) : Bool := e.exitCode == 0

/-- Why a command line is not carried out. -/
def reason : UsageError → Text
  | helpWanted => []
  | versionWanted => []
  | nothingGiven => "no command was given".toList
  | noSubcommand => "no command was given".toList
  | unknownSubcommand => "there is no such command".toList
  | unknownArgument => "there is an argument that is not expected".toList
  | badValue => "a value is missing or not one of those possible".toList
  | unreadableValue => "a value cannot be read".toList
  | unwantedValue => "an option that takes no value was given one".toList
  | repeated => "an option was given twice".toList
  | missingArgument => "a required argument is missing".toList

/-- What is printed. -/
def text : UsageError → Text
  | helpWanted => Text.line helpText
  | versionWanted => Text.line versionText
  | nothingGiven => Text.line helpText
  | e => Text.line ("error: ".toList ++ e.reason) ++ Text.line "For more, try '--help'.".toList

end UsageError
end DocAudit.CommandLine
