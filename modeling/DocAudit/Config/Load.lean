/-
  DocAudit.Config.Load
  ────────────────────
  **WHERE SETTINGS COME FROM.**

  A configuration file that is named must exist.  Otherwise the file of the usual
  name in the working directory is used, and the defaults if there is none.
-/
import DocAudit.Config.Decode
import DocAudit.Files.Disk

namespace DocAudit.Config

variable {m : Type → Type} [Monad m]

/-- The settings in the file at a path. -/
def loadFrom (disk : Disk m) (path : Text) : ExceptT Error m Config := do
  let text ← disk.load path
  match ofText text with
  | .ok c => pure c
  | .error e => throw e

/-- The settings of the working directory. -/
def loadLocal (disk : Disk m) : ExceptT Error m Config := do
  match ← disk.workingDir with
  | .error f => throw (.io f)
  | .ok dir =>
    let path := Path.join dir configFileName
    if (← disk.kind path).isSome then loadFrom disk path else pure {}

/-- The settings from a named file or from the working directory. -/
def load (disk : Disk m) : Option Text → ExceptT Error m Config
  | some path => loadFrom disk path
  | none => loadLocal disk

end DocAudit.Config
