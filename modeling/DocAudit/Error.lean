/-
  DocAudit.Error
  ──────────────
  **WHY A COMMAND FAILS.**

  An `Error` is a cause; its wording is in one place.  The heading is what stands
  before the message in a notice, and some errors have a further cause, which
  becomes the detail of the notice.
-/
import DocAudit.Glob.Expression

namespace DocAudit

/-! ## §1. Files. -/

/-- Why a file cannot be read or written. -/
inductive FileFault where
  /-- There is nothing at the path. -/
  | missing
  /-- There is nothing at a path that the user named. -/
  | notFound
  /-- There is a directory at the path. -/
  | isDirectory
  /-- The path goes through a file. -/
  | notDirectory
  /-- There is something at the path already. -/
  | alreadyExists
  /-- A name in the path, or the path itself, is longer than the file system allows. -/
  | nameTooLong
  /-- The path holds the character that ends texts of the system. -/
  | nulInPath
  /-- The bytes of the file are not UTF-8. -/
  | notUtf8
  /-- Some other reason, in the words of whoever knows it. -/
  | other (reason : Text)
  deriving DecidableEq, Repr

/-- The wording of a file fault. -/
def FileFault.message : FileFault → Text
  | missing => "No such file or directory (os error 2)".toList
  | notFound => "no such file or directory".toList
  | isDirectory => "Is a directory (os error 21)".toList
  | notDirectory => "Not a directory (os error 20)".toList
  | alreadyExists => "File exists (os error 17)".toList
  | nameTooLong => "File name too long (os error 36)".toList
  | nulInPath => "file name contained an unexpected NUL byte".toList
  | notUtf8 => "stream did not contain valid UTF-8".toList
  | other reason => reason

/-! ## §2. Configuration files. -/

/-- Why a configuration file cannot be used. -/
inductive TomlFault where
  /-- The statement on a line is not TOML. -/
  | malformed (line : Nat)
  /-- The file is TOML, but not a configuration. -/
  | unfit
  deriving DecidableEq, Repr

/-- The wording of a fault in a configuration file. -/
def TomlFault.message : TomlFault → Text
  | malformed line => "invalid statement on line ".toList ++ Text.ofNat line
  | unfit => "unknown key or value of the wrong type".toList

/-! ## §3. Errors. -/

/-- Why a command fails. -/
inductive Error where
  /-- A setting makes no sense. -/
  | config (message : Text)
  /-- A file cannot be read. -/
  | fileRead (path : Text) (cause : FileFault)
  /-- An exclude pattern is not a glob. -/
  | invalidPattern (pattern : Text) (cause : Glob.Fault)
  /-- The exclude patterns are globs, but cannot be used together. -/
  | invalidPatterns (patterns : List Text) (cause : Glob.CollectionFault)
  /-- A file or directory cannot be written. -/
  | io (cause : FileFault)
  /-- A configuration file cannot be used. -/
  | toml (cause : TomlFault)
  /-- The provider of declarations gave up on a file. -/
  | provider (path message : Text)
  /-- A function is not declared where it was looked for. -/
  | functionNotFound (name path : Text)
  deriving DecidableEq, Repr

namespace Error

def heading : Error → Text
  | config _ => "Config".toList
  | toml _ => "Config".toList
  | fileRead _ _ => "FileRead".toList
  | invalidPattern _ _ => "Pattern".toList
  | invalidPatterns _ _ => "Pattern".toList
  | io _ => "IO".toList
  | provider _ _ => "Provider".toList
  | functionNotFound _ _ => "Lookup".toList

/-- The wording of an error. -/
def message : Error → Text
  | config m => "Configuration error: ".toList ++ m
  | fileRead path _ => "Failed to read file: ".toList ++ path
  | invalidPattern pattern _ => "Invalid glob pattern: ".toList ++ pattern
  | invalidPatterns patterns _ => "Invalid glob pattern: ".toList ++ Text.join ", ".toList patterns
  | io cause => "IO error: ".toList ++ cause.message
  | toml cause => "TOML parse error: ".toList ++ cause.message
  | provider path m => "Declaration provider failed on ".toList ++ path ++ ": ".toList ++ m
  | functionNotFound name path =>
    "Function '".toList ++ name ++ "' is not declared in ".toList ++ path

/-- The cause behind an error, where there is one. -/
def detail? : Error → Option Text
  | fileRead _ cause => some cause.message
  | invalidPattern pattern cause => some (cause.describe pattern)
  | invalidPatterns _ cause => some cause.message
  | _ => none

end Error
end DocAudit
