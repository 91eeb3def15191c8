/-
  DocAudit.Files.Disk
  ───────────────────
  **WHAT THE COMMANDS NEED FROM A FILE SYSTEM.**

  The commands are written once, over a `Disk`: a handful of operations in some
  monad.  The program runs them on the real file system, and everything that can
  be said about them is said of a disk that is a value (`Files.Tree`).
-/
import DocAudit.Error
import DocAudit.Path

namespace DocAudit

/-- What can stand at a path. -/
inductive FileKind where
  /-- A file. -/
  | file
  /-- A directory. -/
  | directory
  /-- Something else, such as a device. -/
  | other
  deriving DecidableEq, Repr

/-- The operations of a file system. -/
structure Disk (m : Type → Type) where
  /-- The path of the working directory. -/
  workingDir : m (Except FileFault Text)
  /-- What stands at a path. -/
  kind : Text → m (Option FileKind)
  /-- The text of a file. -/
  read : Text → m (Except FileFault Text)
  /-- The paths of all files below a directory, in any order. -/
  walk : Text → m (List Text)
  /-- Write a file, in place of what it held before. -/
  write : Text → Text → m (Except FileFault Unit)
  /-- Make a directory in an existing one. -/
  makeDir : Text → m (Except FileFault Unit)

namespace Disk

variable {m : Type → Type} [Monad m]

/-- Read a file that a command cannot do without. -/
def load (disk : Disk m) (path : Text) : ExceptT Error m Text := do
  match ← disk.read path with
  | .ok t => pure t
  | .error f => throw (.fileRead path f)

/-- Make a directory and those it stands in, given by its components, innermost
first.  What is there already is left alone. -/
def makeDirs (disk : Disk m) : List Component → m (Except FileFault Unit)
  | [] => pure (.ok ())
  | c :: outer => do
    let path := Path.ofComponents (c :: outer).reverse
    -- a directory that is there already is as good as a new one
    let settle (r : Except FileFault Unit) : m (Except FileFault Unit) := do
      match r with
      | .ok () => pure (.ok ())
      | .error f => if (← disk.kind path) = some .directory then pure (.ok ()) else pure (.error f)
    match ← disk.makeDir path with
    | .error .missing =>
      match ← makeDirs disk outer with
      | .error f => pure (.error f)
      | .ok () => settle (← disk.makeDir path)
    | r => settle r

/-- Write a file into a directory that is made if it is not there. -/
def save (disk : Disk m) (path content : Text) : m (Except FileFault Unit) := do
  match ← disk.makeDirs (Path.outer path) with
  | .error f => pure (.error f)
  | .ok () => disk.write path content

end Disk
end DocAudit
