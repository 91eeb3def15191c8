/-
  DocAudit.Files.Selection
  ────────────────────────
  **WHICH FILES ARE CHECKED.**

  A file that is named is checked whatever it is called.  A directory that is
  named stands for the files below it that have one of the extensions and that no
  exclude glob matches.  The files are put in order, and a file that was reached
  twice under equal paths is checked once.
-/
import DocAudit.Config.Basic
import DocAudit.Files.Disk
import DocAudit.Glob.Match

namespace DocAudit

/-! ## §1. The filter. -/

/-- What a directory walk keeps. -/
structure FileFilter where
  /-- The extensions, in small letters and without points in front. -/
  extensions : List Text
  /-- The globs of what is left out. -/
  exclude : List (List Glob.Part)

namespace FileFilter

/-- Read globs, all of which must be well formed. -/
def globs : List Text → Except Error (List (List Glob.Part))
  | [] => .ok []
  | p :: rest =>
    match Glob.parse p with
    | .error f => .error (.invalidPattern p f)
    | .ok glob => (globs rest).map (glob :: ·)

/-- The filter of the given extensions and exclude patterns. -/
def ofPatterns (extensions exclude : List Text) : Except Error FileFilter :=
  match globs exclude with
  | .error e => .error e
  | .ok gs =>
    match Glob.collectionFault? gs with
    | some f => .error (.invalidPatterns exclude f)
    | none => .ok ⟨extensions.map fun ext => Text.lower (Config.bareExtension ext), gs⟩

/-- Whether a path has one of the extensions, whatever its case. -/
def hasExtension (f : FileFilter) (path : Text) : Bool :=
  match Path.extension? path with
  | some ext => f.extensions.contains (Text.lower ext)
  | none => false

def isExcluded (f : FileFilter) (path : Text) : Bool := f.exclude.any (Glob.isMatch · path)

/-- Whether a walk keeps a path. -/
def keeps (f : FileFilter) (path : Text) : Bool := f.hasExtension path && !f.isExcluded path

end FileFilter

/-! ## §2. The selection. -/

namespace Selection

variable {m : Type → Type} [Monad m]

/-- The files that one path stands for. -/
def expand (disk : Disk m) (f : FileFilter) (path : Text) : ExceptT Error m (List Text) := do
  match ← disk.kind path with
  | some .directory => pure ((← disk.walk path).filter f.keeps)
  | some .file => pure [path]
  | _ => throw (.fileRead path .notFound)

/-- The files that several paths stand for, in order. -/
def collect (disk : Disk m) (f : FileFilter) (paths : List Text) : ExceptT Error m (List Text) := do
  let files ← paths.mapM (expand disk f)
  pure (Path.sorted files.flatten)

end Selection
end DocAudit
