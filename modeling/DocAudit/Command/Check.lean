/-
  DocAudit.Command.Check
  ──────────────────────
  **CHECKING MANY FILES.**

  Every file is checked on its own.  One that cannot be read is skipped with a
  warning and counted; the others are reported as if it were not there.  Findings
  decide the exit code before failures do:

      1  there are findings, and they count as a failure
      2  there are none, but a file could not be checked
      0  otherwise
-/
import DocAudit.Audit.Report
import DocAudit.Error
import DocAudit.Output.Notice
import DocAudit.Output.Summary

namespace DocAudit

/-! ## §1. One file. -/

/-- The result of checking one file: its report, or why there is none. -/
abbrev FileResult := Except Error FileReport

/-- Check a file, given what reading it yielded. -/
def FileReport.ofFile (path : Text) : Except FileFault Text → FileResult
  | .ok source => .ok (FileReport.ofSource path source)
  | .error f => .error (.fileRead path f)

/-! ## §2. All files. -/

/-- The reports of the files that could be checked, and the number of the others. -/
structure CheckOutcome where
  /-- The reports, in order of the files. -/
  reports : List FileReport
  /-- How many files could not be checked. -/
  failures : Nat
  deriving DecidableEq, Repr

namespace CheckOutcome

/-- The report of a result, ignored functions left out. -/
def report? (ignore : IgnoreList) : FileResult → Option FileReport
  | .ok r => some (r.ignoring ignore)
  | .error _ => none

/-- Whether a file could not be checked. -/
def failed : FileResult → Bool
  | .ok _ => false
  | .error _ => true

/-- The outcome of checking several files. -/
def ofResults (ignore : IgnoreList) (rs : List FileResult) : CheckOutcome :=
  ⟨rs.filterMap (report? ignore), rs.countP failed⟩

/-- The number of findings. -/
def findings (o : CheckOutcome) : Nat := FileReport.total (·.findings.length) o.reports

end CheckOutcome

def exitCode (findings failures : Nat) (warnOnly : Bool) : Nat :=
  if 0 < findings ∧ warnOnly = false then 1
  else if findings = 0 ∧ 0 < failures then 2
  else 0

/-! ## §3. Notices. -/

namespace Notice

/-- The notice of an error that ends a command. -/
def ofError (e : Error) : Notice := ⟨.failure e.heading, e.message, e.detail?, none⟩

/-- The notice of a file that was skipped. -/
def skipped (e : Error) : Notice :=
  ⟨.warning, e.message, e.detail?, some "the file was skipped".toList⟩

def malformed (path : Text) (i : CommentIssue) : Notice :=
  { level := .warning, message := path ++ ": ".toList ++ i.message }

/-- The remark on what was found in a file. -/
def counts (r : FileReport) : Notice :=
  { level := .info
    message := r.path
    detail := some (Text.ofNat r.declarations ++ " declarations, ".toList
      ++ Text.ofNat r.comments ++ " comments".toList) }

/-- The remark on names that were made types. -/
def aliased (detail : Text) : Notice :=
  { level := .info, message := "aliased to int".toList, detail := some detail }

/-- The remark on the aliases of a file. -/
def aliases (r : FileReport) : List Notice :=
  if r.aliases.isEmpty then []
  else
    [aliased (Text.join ", ".toList r.aliases ++ " (after ".toList ++ Text.ofNat r.passes
      ++ " passes)".toList)]

/-- The remark on a note of the parse. -/
def parseNote (path : Text) (n : Note) : Notice :=
  { level := .info
    message := path ++ [':'] ++ Text.ofNat n.line ++ ": ".toList ++ n.severity.word ++ ": ".toList
      ++ n.message }

/-- The notices on a report, more of them the more is to be said. -/
def ofReport (verbose : Nat) (r : FileReport) : List Notice :=
  r.issues.map (malformed r.path)
    ++ (if 1 ≤ verbose then [counts r] else [])
    ++ (if 2 ≤ verbose then aliases r ++ r.notes.map (parseNote r.path) else [])

/-- The notices on a result; a quiet run has none. -/
def ofResult (verbose : Nat) (quiet : Bool) : FileResult → List Notice
  | .ok r => if quiet then [] else ofReport verbose r
  | .error e => if quiet then [] else [skipped e]

end Notice
end DocAudit
