/-
  DocAudit.CommandLine.Flag
  ─────────────────────────
  **THE FLAGS OF THE COMMAND LINE.**

  Each flag is listed once, with its names, the scopes in which it may stand and
  what it does with a value.  A scope is the command line before the name of a
  subcommand, or after the name of a certain one; a few flags may stand in all.
-/
import DocAudit.Comment.Basic
import DocAudit.Output.Colour
import DocAudit.Output.Summary

namespace DocAudit.CommandLine

/-! ## §1. Scopes. -/

/-- The subcommands. -/
inductive Subcommand where
  /-- Check files. -/
  | check
  /-- Print a skeleton. -/
  | stub
  /-- Print a template. -/
  | template
  /-- Lay out a signature. -/
  | format
  /-- Write a configuration file. -/
  | init
  deriving DecidableEq, Repr

namespace Subcommand

def all : List Subcommand := [check, stub, template, format, init]

def name : Subcommand → Text
  | check => "check".toList
  | stub => "stub".toList
  | template => "template".toList
  | format => "format".toList
  | init => "init".toList

def ofName? (n : Text) : Option Subcommand := all.find? fun s => s.name == n

end Subcommand

/-- A part of the command line; `none` is the part before the subcommand. -/
abbrev Scope := Option Subcommand

/-- How many paths a scope takes. -/
inductive Arity where
  /-- None. -/
  | none
  /-- Exactly one. -/
  | one
  /-- Any number. -/
  | many
  deriving DecidableEq, Repr

/-- How many paths a scope takes. -/
def Scope.arity : Scope → Arity
  | none => .none
  | some .check => .many
  | some .stub => .one
  | some .template => .one
  | some .format => .one
  | some .init => .none

/-! ## §2. Flags. -/

/-- The flags. -/
inductive Flag where
  /-- Say more; may be repeated. -/
  | verbose
  /-- Say less. -/
  | quiet
  /-- When to use colour. -/
  | colour
  /-- Use no configuration file. -/
  | noConfig
  /-- Explain the command line. -/
  | help
  /-- Print the version. -/
  | version
  /-- The configuration file. -/
  | config
  /-- The file of functions to ignore. -/
  | ignoreFile
  /-- The extensions of files to check. -/
  | ext
  /-- A glob of paths to leave out. -/
  | exclude
  /-- The form of the output. -/
  | format
  /-- The file to write. -/
  | output
  /-- Do not fail because of findings. -/
  | warnOnly
  /-- The name of a function. -/
  | function
  /-- The dialect of a comment. -/
  | dialect
  /-- The width of a comment. -/
  | width
  /-- The indent of continued lines. -/
  | indent
  /-- Lay out a prototype. -/
  | header
  /-- Overwrite a file. -/
  | force
  deriving DecidableEq, Repr

/-- What a flag does when it is given. -/
inductive Action where
  /-- It is set; it can be set once. -/
  | set
  /-- It is counted. -/
  | count
  /-- It takes one value; it can be given once. -/
  | value
  /-- It takes one value each time it is given. -/
  | append
  /-- It ends the reading of the command line. -/
  | stop
  deriving DecidableEq, Repr

namespace Flag

/-- What the flag does. -/
def action : Flag → Action
  | verbose => .count
  | quiet => .set
  | noConfig => .set
  | warnOnly => .set
  | header => .set
  | force => .set
  | ext => .append
  | exclude => .append
  | help => .stop
  | version => .stop
  | colour => .value
  | config => .value
  | ignoreFile => .value
  | format => .value
  | output => .value
  | function => .value
  | dialect => .value
  | width => .value
  | indent => .value

def takesValue (f : Flag) : Bool := f.action == .value || f.action == .append

/-- The name of the flag after two dashes. -/
def long : Flag → Text
  | verbose => "verbose".toList
  | quiet => "quiet".toList
  | colour => "color".toList
  | noConfig => "no-config".toList
  | help => "help".toList
  | version => "version".toList
  | config => "config".toList
  | ignoreFile => "ignore-file".toList
  | ext => "ext".toList
  | exclude => "exclude".toList
  | format => "format".toList
  | output => "output".toList
  | warnOnly => "warn-only".toList
  | function => "function".toList
  | dialect => "dialect".toList
  | width => "width".toList
  | indent => "indent".toList
  | header => "header".toList
  | force => "force".toList

/-- The letter of the flag after one dash, if it has one. -/
def short? : Flag → Option Char
  | verbose => some 'v'
  | quiet => some 'q'
  | help => some 'h'
  | version => some 'V'
  | config => some 'c'
  | exclude => some 'x'
  | format => some 'f'
  | output => some 'o'
  | _ => none

/-- The flags that may stand in every scope. -/
def everywhere : List Flag := [verbose, quiet, colour, noConfig, help]

/-- The flags that may stand in a scope. -/
def ofScope : Scope → List Flag
  | none => version :: everywhere
  | some .check =>
    [config, ignoreFile, ext, exclude, format, output, warnOnly] ++ everywhere
  | some .stub => everywhere
  | some .template => [function, dialect, width, indent, config] ++ everywhere
  | some .format => [function, header] ++ everywhere
  | some .init => [output, force] ++ everywhere

/-- The flags that a scope cannot do without. -/
def required : Scope → List Flag
  | some .template => [function]
  | some .format => [function]
  | _ => []

/-- The flag of a long name in a scope. -/
def ofLong? (s : Scope) (n : Text) : Option Flag := (ofScope s).find? fun f => f.long == n

/-- The flag of a letter in a scope. -/
def ofShort? (s : Scope) (c : Char) : Option Flag :=
  (ofScope s).find? fun f => f.short? == some c

end Flag

/-! ## §3. Values. -/

/-- Why a command line is not carried out. -/
inductive UsageError where
  /-- Help was asked for. -/
  | helpWanted
  /-- The version was asked for. -/
  | versionWanted
  /-- The command line is empty. -/
  | nothingGiven
  /-- There is no subcommand. -/
  | noSubcommand
  /-- There is no such subcommand. -/
  | unknownSubcommand
  /-- There is no such flag, or a path too many. -/
  | unknownArgument
  /-- A value is missing or not one of those possible. -/
  | badValue
  /-- A value cannot be read. -/
  | unreadableValue
  /-- A flag that takes no value got one. -/
  | unwantedValue
  /-- A flag was given twice that can be given once. -/
  | repeated
  /-- A path or flag is missing. -/
  | missingArgument
  deriving DecidableEq, Repr

/-- The exit code: asking for help or the version is no failure. -/
def UsageError.exitCode : UsageError → Nat
  | helpWanted => 0
  | versionWanted => 0
  | _ => 2

/-- A natural number of at most 64 bits, with a plus sign or without. -/
def number? (t : Text) : Option Nat :=
  let ds := (Text.after? ['+'] t).getD t
  if ds.isEmpty || !ds.all Char.isDigit then none
  else
    let n := ds.foldl (fun n c => n * 10 + (c.toNat - '0'.toNat)) 0
    if n < Text.numberLimit then some n else none

/-- What is wrong with a value of a flag. -/
def Flag.valueFault? (f : Flag) (v : Text) : Option UsageError :=
  match f with
  | colour => if (ColourMode.ofWord? v).isSome then none else some .badValue
  | dialect => if (Dialect.ofWord? v).isSome then none else some .badValue
  | format => if (OutputFormat.ofWord? v).isSome then none else some .unreadableValue
  | width => if (number? v).isSome then none else some .unreadableValue
  | indent => if (number? v).isSome then none else some .unreadableValue
  | config => if v.isEmpty then some .badValue else none
  | ignoreFile => if v.isEmpty then some .badValue else none
  | output => if v.isEmpty then some .badValue else none
  | _ => none

/-- The values in what follows a flag; extensions are separated by commas. -/
def Flag.splitValue (f : Flag) (v : Text) : List Text :=
  match f with
  | ext => Text.splitOn ',' v
  | _ => [v]

end DocAudit.CommandLine
