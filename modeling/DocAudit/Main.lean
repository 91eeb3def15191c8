/-
  DocAudit.Main
  ─────────────
  **THE PROGRAM.**

  Everything here is plumbing: the disk of the machine as a `Disk`, the arguments
  handed to `CommandLine.parse`, the outcome of `Command.run` printed.  No
  decision about documentation is made in this module.
-/
import DocAudit.Command.Run
import DocAudit.CommandLine.Help

namespace DocAudit.Machine

/-! ## §1. The disk of the machine. -/

/-- The number of an error of the system, which some operations report with a minus. -/
def errorNumber (code : UInt32) : UInt32 := min code (0 - code)

/-- The fault that an error of the system stands for. -/
def fault : IO.Error → FileFault
  | .noFileOrDirectory .. => .missing
  | .alreadyExists .. => .alreadyExists
  | .invalidArgument _ code reason =>
    if errorNumber code = 36 then .nameTooLong else .other reason.toList
  | .inappropriateType _ code reason =>
    if errorNumber code = 21 then .isDirectory
    else if errorNumber code = 20 then .notDirectory
    else .other reason.toList
  | e => .other e.toString.toList

/-- Do something that may fail. -/
def attempt {α : Type} (act : IO α) : IO (Except FileFault α) := do
  try
    return .ok (← act)
  catch e =>
    return .error (fault e)

/-- Do something with a path that may fail. -/
def attemptAt {α : Type} (path : Text) (act : String → IO α) : IO (Except FileFault α) := do
  if path.contains '\x00' then return .error .nulInPath
  attempt (act (String.ofList path))

/-- What stands at a path. -/
def kind (path : Text) : IO (Option FileKind) := do
  if path.isEmpty then return none
  let here ← IO.currentDir
  match ← attemptAt path fun p => (here / p).metadata with
  | .error _ => return none
  | .ok found =>
    match found.type with
    | .dir => return some .directory
    | .file => return some .file
    | _ => return some .other

def read (path : Text) : IO (Except FileFault Text) := do
  match ← attemptAt path fun p => IO.FS.readBinFile p with
  | .error f => return .error f
  | .ok bytes =>
    match String.fromUTF8? bytes with
    | some t => return .ok t.toList
    | none => return .error .notUtf8

/-- The names in a directory; one that cannot be read has none. -/
def names (dir : Text) : IO (List Text) := do
  let place := (← IO.currentDir) / String.ofList dir
  match ← attempt place.readDir with
  | .error _ => return []
  | .ok entries => return entries.toList.map fun e => e.fileName.toList

/-- The greatest number of names in a path. -/
def maxDepth : Nat := 4096

/-- The paths of all files at most `depth` directories below a directory. -/
def walk : (depth : Nat) → Text → IO (List Text)
  | 0, _ => return []
  | depth + 1, dir => do
    let found ← (← names dir).mapM fun name => do
      let path := Path.join dir name
      match ← kind path with
      | some .directory => walk depth path
      | some .file => return [path]
      | _ => return []
    return found.flatten

def disk : Disk IO :=
  { workingDir := attempt do return (← IO.currentDir).toString.toList
    kind
    read
    walk := walk maxDepth
    write := fun path content =>
      attemptAt path fun p => IO.FS.writeFile p (String.ofList content)
    makeDir := fun path => attemptAt path fun p => IO.FS.createDir p }

/-- The outputs that take colour: terminals, unless the user wants none. -/
def terminals : IO Command.Terminals := do
  if (← IO.getEnv "NO_COLOR").isSome then return {}
  return { out := ← (← IO.getStdout).isTty, err := ← (← IO.getStderr).isTty }

end DocAudit.Machine

/-! ## §2. The command line. -/

open DocAudit in
/-- Read the command line, carry it out and print the outcome. -/
def main (args : List String) : IO UInt32 := do
  match CommandLine.parse (args.map String.toList) with
  | .error e =>
    if e.isAnswer then IO.print (String.ofList e.text) else IO.eprint (String.ofList e.text)
    return e.exitCode.toUInt32
  | .ok invocation =>
    let outcome ← Command.run Machine.disk (← Machine.terminals) invocation
    IO.eprint (String.ofList outcome.err)
    IO.print (String.ofList outcome.out)
    return outcome.exit.toUInt32
