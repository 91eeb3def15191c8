/-
  DocAudit.Config.Basic
  ─────────────────────
  **SETTINGS.**

  The settings say which files a directory walk picks up, which functions are not
  reported, and what templates look like.  Every setting has a default; some
  values are refused.
-/
import DocAudit.Comment.Basic
import DocAudit.Comment.Wrap
import DocAudit.Error

namespace DocAudit

/-! ## §1. The settings. -/

/-- Which files a directory walk picks up. -/
structure ScannerConfig where
  /-- The extensions of the files, with or without a point in front. -/
  extensions : List Text := [['c'], ['h']]
  /-- The globs of the paths to leave out. -/
  exclude : List Text := []
  deriving DecidableEq, Repr

/-- Which functions are not reported. -/
structure CheckConfig where
  /-- The names of functions. -/
  ignoreFunctions : List Text := []
  /-- A file with further names. -/
  ignoreFile : Option Text := none
  deriving DecidableEq, Repr

/-- What templates look like. -/
structure TemplateConfig where
  /-- The dialect of the comment. -/
  dialect : Dialect := .doxygen
  /-- The greatest length of a line. -/
  width : Nat := 80
  /-- The extra indent of continued lines. -/
  indent : Nat := 4
  deriving DecidableEq, Repr

/-- All settings. -/
structure Config where
  /-- Which files are checked. -/
  scanner : ScannerConfig := {}
  /-- What is reported. -/
  check : CheckConfig := {}
  /-- What templates look like. -/
  template : TemplateConfig := {}
  deriving DecidableEq, Repr

/-- The layout of templates. -/
def TemplateConfig.wrapOptions (c : TemplateConfig) : WrapOptions := ⟨c.width, c.indent⟩

/-- The name of the configuration file in the working directory. -/
def configFileName : Text := ".cdoc-guard.toml".toList

namespace Config

/-! ## §2. Validity. -/

/-- The least width that leaves room for the mark of a line and one character. -/
def minWidth : Nat := 4

/-- An extension without the points in front of it. -/
def bareExtension (ext : Text) : Text := ext.dropWhile (· == '.')

/-- The first pattern that is not a glob, as an error. -/
def patternFault? : List Text → Option Error
  | [] => none
  | p :: rest =>
    match Glob.parse p with
    | .error f => some (.invalidPattern p f)
    | .ok _ => patternFault? rest

/-- Why settings are refused: the width of templates is looked at first, then the
extensions, then the patterns. -/
def fault? (c : Config) : Option Error :=
  if c.template.width < minWidth then
    some <| .config <|
      "template.width must be at least ".toList ++ Text.ofNat minWidth ++ ", got ".toList
        ++ Text.ofNat c.template.width
  else
    match c.scanner.extensions.find? fun ext => (bareExtension ext).isEmpty with
    | some ext =>
      some <| .config <|
        "scanner.extensions contains an empty extension: '".toList ++ ext ++ ['\'']
    | none => patternFault? c.scanner.exclude

/-- The settings, if they make sense. -/
def validate (c : Config) : Except Error Config :=
  match fault? c with
  | some e => .error e
  | none => .ok c

/-! ## §3. The file that is written for a start. -/

/-- A configuration file with the defaults and what they mean. -/
def starterFile : Text :=
  ["# cdoc-guard configuration file",
    "",
    "[scanner]",
    "# File extensions checked when walking directories",
    "extensions = [\"c\", \"h\"]",
    "",
    "# Exclude patterns (glob syntax)",
    "exclude = [",
    "    \"**/third_party/**\",",
    "    \"**/build/**\",",
    "]",
    "",
    "[check]",
    "# Functions whose diagnostics are suppressed",
    "ignore_functions = []",
    "",
    "# Newline-delimited list of further functions to ignore",
    "# ignore_file = \"doc-ignore.txt\"",
    "",
    "[template]",
    "# Comment dialect for `cdoc-guard template`: \"doxygen\" or \"edt\"",
    "dialect = \"doxygen\"",
    "",
    "# Maximum width of rendered comment lines",
    "width = 80",
    "",
    "# Extra indent of wrapped continuation lines",
    "indent = 4"].flatMap fun l => Text.line l.toList

end Config
end DocAudit
