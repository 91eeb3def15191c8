/-
  DocAudit.CommandLine.Invocation
  ───────────────────────────────
  **WHAT THE USER WANTS.**

  An invocation is a command with its settings.  A flag that may stand in every
  scope counts where it stands last: what follows the subcommand replaces what
  precedes it.
-/
import DocAudit.CommandLine.Parse
import DocAudit.Config.Basic
import DocAudit.Layout

namespace DocAudit.CommandLine

/-! ## §1. Commands. -/

/-- The settings of every command. -/
structure Globals where
  /-- How much is said. -/
  verbose : Nat := 0
  /-- Whether only the result is printed. -/
  quiet : Bool := false
  /-- When to use colour. -/
  colour : ColourMode := .auto
  /-- Whether configuration files are left alone. -/
  noConfig : Bool := false
  deriving DecidableEq, Repr

/-- The settings of a check. -/
structure CheckArgs where
  /-- The files and directories to check. -/
  paths : List Text := [['.']]
  /-- The configuration file. -/
  config : Option Text := none
  /-- The file of functions to ignore. -/
  ignoreFile : Option Text := none
  /-- The extensions of files to check. -/
  ext : Option (List Text) := none
  /-- Further globs of paths to leave out. -/
  exclude : List Text := []
  /-- The form of the output. -/
  format : OutputFormat := .text
  /-- The file to write the output to. -/
  output : Option Text := none
  /-- Whether findings are no failure. -/
  warnOnly : Bool := false
  deriving DecidableEq, Repr

/-- The settings of a template. -/
structure TemplateArgs where
  /-- The file that declares the function. -/
  file : Text
  /-- The function. -/
  function : Text
  /-- The dialect of the comment. -/
  dialect : Option Dialect := none
  /-- The width of the comment. -/
  width : Option Nat := none
  /-- The indent of continued lines. -/
  indent : Option Nat := none
  /-- The configuration file. -/
  config : Option Text := none
  deriving DecidableEq, Repr

/-- A command. -/
inductive Command where
  /-- Check files. -/
  | check (args : CheckArgs)
  /-- Print the skeleton of a file. -/
  | stub (file : Text)
  /-- Print a template. -/
  | template (args : TemplateArgs)
  /-- Lay out the signature of a function. -/
  | format (file function : Text) (form : Layout.Form)
  /-- Write a configuration file. -/
  | init (output : Text) (force : Bool)
  deriving DecidableEq, Repr

/-- A command and the settings of every command. -/
structure Invocation where
  /-- The settings of every command. -/
  globals : Globals
  /-- The command. -/
  command : Command
  deriving DecidableEq, Repr

/-! ## §2. From words to commands. -/

namespace Words

/-- The scope in which a flag counts: the inner one if it was given there. -/
def deciding (w : Words) (f : Flag) : Given := if w.inner.has f then w.inner else w.outer

/-- The settings of every command. -/
def globals (w : Words) : Globals :=
  { verbose := (w.deciding .verbose).count .verbose
    quiet := (w.deciding .quiet).has .quiet
    colour := (((w.deciding .colour).value? .colour).bind ColourMode.ofWord?).getD .auto
    noConfig := (w.deciding .noConfig).has .noConfig }

/-- The one path of a scope that takes one. -/
def file (w : Words) : Text := (w.inner.paths.head?).getD []

/-- The name of the function. -/
def function (w : Words) : Text := (w.inner.value? .function).getD []

/-- The settings of a check. -/
def checkArgs (w : Words) : CheckArgs :=
  { paths := if w.inner.paths.isEmpty then [['.']] else w.inner.paths
    config := w.inner.value? .config
    ignoreFile := w.inner.value? .ignoreFile
    ext := if w.inner.has .ext then some (w.inner.values .ext) else none
    exclude := w.inner.values .exclude
    format := ((w.inner.value? .format).bind OutputFormat.ofWord?).getD .text
    output := w.inner.value? .output
    warnOnly := w.inner.has .warnOnly }

/-- The settings of a template. -/
def templateArgs (w : Words) : TemplateArgs :=
  { file := w.file
    function := w.function
    dialect := (w.inner.value? .dialect).bind Dialect.ofWord?
    width := (w.inner.value? .width).bind number?
    indent := (w.inner.value? .indent).bind number?
    config := w.inner.value? .config }

def command (w : Words) : Command :=
  match w.subcommand with
  | .check => .check w.checkArgs
  | .stub => .stub w.file
  | .template => .template w.templateArgs
  | .format =>
    .format w.file w.function (if w.inner.has .header then .prototype else .definition)
  | .init => .init ((w.inner.value? .output).getD configFileName) (w.inner.has .force)

end Words

/-- Read a command line, given without the name of the program. -/
def parse (args : List Text) : Except UsageError Invocation :=
  (readWords {} args).map fun w => ⟨w.globals, w.command⟩

end DocAudit.CommandLine
