/-
  DocAudit.Command.Run
  ────────────────────
  **CARRYING OUT A COMMAND.**

  A command reads and writes files through a `Disk` and yields what is printed and
  the exit code.  An error that ends a command is printed as a notice and gives the
  exit code 2.
-/
import DocAudit.Command.Check
import DocAudit.CommandLine.Invocation
import DocAudit.Comment.Template
import DocAudit.Config.Load
import DocAudit.Files.Selection

namespace DocAudit.Command

open CommandLine

variable {m : Type → Type} [Monad m]

/-! ## §1. What a command yields. -/

/-- What a command prints, and its exit code. -/
structure Outcome where
  /-- The exit code. -/
  exit : Nat := 0
  /-- What goes to the standard output. -/
  out : Text := []
  /-- What goes to the standard error. -/
  err : Text := []
  deriving DecidableEq, Repr

/-- Which outputs are terminals that take colour. -/
structure Terminals where
  /-- The standard output. -/
  out : Bool := false
  /-- The standard error. -/
  err : Bool := false
  deriving DecidableEq, Repr

/-- The setting of a run: the settings of every command, and the terminals. -/
structure Setting where
  /-- The settings of every command. -/
  globals : Globals := {}
  /-- The terminals. -/
  terminals : Terminals := {}
  deriving DecidableEq, Repr

namespace Setting

def notices (s : Setting) (ns : List Notice) : Text :=
  Notice.renderAll (s.globals.colour.allows s.terminals.err) ns

/-- How the result of a check is written. -/
def manner (s : Setting) : Summary.Manner :=
  ⟨s.globals.colour.allows s.terminals.out, s.globals.verbose, s.globals.quiet⟩

/-- The outcome of a command that failed after some notices. -/
def failure (s : Setting) (before : List Notice) (e : Error) : Outcome :=
  { exit := 2, err := s.notices (before ++ [Notice.ofError e]) }

end Setting

/-- The outcome of steps that may fail. -/
def settle (s : Setting) (steps : ExceptT Error m Outcome) : m Outcome := do
  match ← steps.run with
  | .ok o => pure o
  | .error e => pure (s.failure [] e)

/-! ## §2. Settings and functions. -/

/-- The settings of a run. -/
def loadConfig (disk : Disk m) (s : Setting) (path : Option Text) : ExceptT Error m Config :=
  if s.globals.noConfig then pure {} else Config.load disk path

/-- Settings that must make sense. -/
def valid (c : Config) : ExceptT Error m Config :=
  match c.validate with
  | .ok c => pure c
  | .error e => throw e

/-- The first declaration of a function in a file. -/
def lookup (disk : Disk m) (path function : Text) : ExceptT Error m Signature := do
  let source ← disk.load path
  match (Resolution.ofSource source).outline.signature? path function with
  | some s => pure s
  | none => throw (.functionNotFound function path)

/-! ## §3. Checking. -/

/-- Settings as the command line changes them. -/
def overrideCheck (a : CheckArgs) (c : Config) : Config :=
  { c with
    scanner :=
      { extensions := a.ext.getD c.scanner.extensions
        exclude := c.scanner.exclude ++ a.exclude }
    check := { c.check with ignoreFile := a.ignoreFile.or c.check.ignoreFile } }

/-- The functions to ignore. -/
def loadIgnoreList (disk : Disk m) (c : CheckConfig) : ExceptT Error m IgnoreList := do
  let fromFile ←
    match c.ignoreFile with
    | some path => do pure (IgnoreList.ofText (← disk.load path))
    | none => pure {}
  pure (fromFile.extend c.ignoreFunctions)

/-- What a check needs to know before it reads the files. -/
def prepareCheck (disk : Disk m) (s : Setting) (a : CheckArgs) :
    ExceptT Error m (IgnoreList × List Text) := do
  let config ← valid (overrideCheck a (← loadConfig disk s a.config))
  let ignore ← loadIgnoreList disk config.check
  match FileFilter.ofPatterns config.scanner.extensions config.scanner.exclude with
  | .error e => throw e
  | .ok filter => pure (ignore, ← Selection.collect disk filter a.paths)

def checkFile (disk : Disk m) (path : Text) : m FileResult := do
  pure (FileReport.ofFile path (← disk.read path))

/-- Put the result of a check where it belongs. -/
def deliver (disk : Disk m) (output : Option Text) (content : Text) :
    m (Except FileFault Text) := do
  match output with
  | none => pure (.ok content)
  | some path => pure ((← disk.save path content).map fun _ => [])

/-- Check files and write the result. -/
def check (disk : Disk m) (s : Setting) (a : CheckArgs) : m Outcome := do
  match ← (prepareCheck disk s a).run with
  | .error e => pure (s.failure [] e)
  | .ok (ignore, files) =>
    let results ← files.mapM (checkFile disk)
    -- every file is reported on, whatever happens to the output
    let notices := results.flatMap (Notice.ofResult s.globals.verbose s.globals.quiet)
    let outcome := CheckOutcome.ofResults ignore results
    let text := Summary.render a.format s.manner outcome.reports
    match ← deliver disk a.output text with
    | .error f => pure (s.failure notices (.io f))
    | .ok out =>
      pure
        { exit := exitCode outcome.findings outcome.failures a.warnOnly
          out
          err := s.notices notices }

/-! ## §4. The other commands. -/

/-- Print the skeleton of a file. -/
def stub (disk : Disk m) (s : Setting) (file : Text) : ExceptT Error m Outcome := do
  let skeleton := (Resolution.ofSource (← disk.load file)).skeleton
  let tell := 1 ≤ s.globals.verbose && !s.globals.quiet && !skeleton.aliases.isEmpty
  pure
    { out := skeleton.text
      err :=
        if tell then s.notices [Notice.aliased (Text.join ", ".toList skeleton.aliases)] else [] }

/-- Settings as the command line changes them. -/
def overrideTemplate (a : TemplateArgs) (c : Config) : Config :=
  { c with
    template :=
      { dialect := a.dialect.getD c.template.dialect
        width := a.width.getD c.template.width
        indent := a.indent.getD c.template.indent } }

/-- Print a template for a function. -/
def template (disk : Disk m) (s : Setting) (a : TemplateArgs) : ExceptT Error m Outcome := do
  let config ← valid (overrideTemplate a (← loadConfig disk s a.config))
  let signature ← lookup disk a.file a.function
  let t := config.template
  pure { out := Text.line (Template.block t.dialect t.wrapOptions signature) }

/-- Lay out the signature of a function. -/
def format (disk : Disk m) (file function : Text) (form : Layout.Form) :
    ExceptT Error m Outcome := do
  pure { out := Text.line (Layout.render form (← lookup disk file function)) }

/-- Write a configuration file, over an existing one only if that is wanted. -/
def init (disk : Disk m) (s : Setting) (output : Text) (force : Bool) :
    ExceptT Error m Outcome := do
  if (← disk.kind output).isSome && !force then
    throw <| .config <|
      "Configuration file already exists: ".toList ++ output
        ++ ". Use --force to overwrite.".toList
  match ← disk.write output Config.starterFile with
  | .error f => throw (.io f)
  | .ok () =>
    let message := Text.line ("Created configuration file: ".toList ++ output)
    pure { out := if s.globals.quiet then [] else message }

/-! ## §5. All commands. -/

/-- Carry out an invocation. -/
def run (disk : Disk m) (terminals : Terminals) (i : Invocation) : m Outcome :=
  let s : Setting := ⟨i.globals, terminals⟩
  match i.command with
  | .check a => check disk s a
  | .stub file => settle s (stub disk s file)
  | .template a => settle s (template disk s a)
  | .format file function form => settle s (format disk file function form)
  | .init output force => settle s (init disk s output force)

end DocAudit.Command
