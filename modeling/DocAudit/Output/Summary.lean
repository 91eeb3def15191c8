/-
  DocAudit.Output.Summary
  ───────────────────────
  **THE RESULT OF A CHECK, FOR PEOPLE AND FOR MACHINES.**

  For people: a line for each finding, on request a line for each clean file, and
  a summary.  For machines: the same counts, findings and comment issues as JSON.
-/
import DocAudit.Audit.Report
import DocAudit.Output.Colour
import DocAudit.Output.Json

namespace DocAudit

/-- The two forms of output. -/
inductive OutputFormat where
  /-- Lines for people. -/
  | text
  /-- JSON for machines. -/
  | json
  deriving DecidableEq, Repr

/-- The format that a word stands for, whatever its case. -/
def OutputFormat.ofWord? (w : Text) : Option OutputFormat :=
  let t := Text.lower w
  if t = "text".toList then some .text else if t = "json".toList then some .json else none

/-- The wording for a word that stands for no format. -/
def OutputFormat.unknown (w : Text) : Text := "Unknown output format: ".toList ++ w

/-- The sum over reports of a number taken from each. -/
def FileReport.total (f : FileReport → Nat) : List FileReport → Nat
  | [] => 0
  | r :: rest => f r + total f rest

namespace Summary

open Text FileReport

/-! ## §1. For people. -/

/-- How much is written. -/
structure Manner where
  /-- Whether colour is used. -/
  colour : Bool := false
  /-- From one on, clean files are listed. -/
  verbose : Nat := 0
  /-- Whether the summary is left out. -/
  quiet : Bool := false
  deriving DecidableEq, Repr

/-- The line of a finding.  In colour it is put together from its parts; without, it is
the message. -/
def findingLine (m : Manner) (f : Finding) : Text :=
  if m.colour then
    let location := f.signature.file ++ [':'] ++ ofNat f.signature.line
    Style.paint m.colour [.cyan] location ++ " in function ".toList ++ f.signature.name
      ++ " - ".toList ++ Style.paint m.colour [.red] f.fault.message
  else f.message

def cleanLine (m : Manner) (r : FileReport) : Text :=
  Style.paint m.colour [.green] "✓".toList ++ " ".toList ++ r.path ++ " (".toList
    ++ ofNat r.declarations ++ " declarations, ".toList ++ ofNat r.comments
    ++ " comments)".toList

/-- The number of findings, in the colour of the verdict. -/
def findingCount (m : Manner) (n : Nat) : Text :=
  Style.paint m.colour [if n = 0 then .green else .red] (ofNat n)

/-- The last line. -/
def summaryLine (m : Manner) (rs : List FileReport) : Text :=
  "Summary: ".toList ++ ofNat rs.length ++ " files checked, ".toList
    ++ ofNat (total (·.declarations) rs) ++ " declarations, ".toList
    ++ Style.paint m.colour [.green] (ofNat (rs.filter isClean).length) ++ " clean, ".toList
    ++ findingCount m (total (·.findings.length) rs) ++ " diagnostics".toList

/-- The lines before the summary. -/
def bodyLines (m : Manner) (rs : List FileReport) : List Text :=
  (rs.flatMap (·.findings)).map (findingLine m)
    ++ if 1 ≤ m.verbose then (rs.filter isClean).map (cleanLine m) else []

/-- The output for people.  An empty line sets the summary apart from what is
above it. -/
def text (m : Manner) (rs : List FileReport) : Text :=
  let body := (bodyLines m rs).flatMap line
  if m.quiet then body
  else body ++ (if body = [] then [] else ['\n']) ++ line (summaryLine m rs)

/-! ## §2. For machines. -/

/-- A finding as an object; only some faults are about a parameter. -/
def findingJson (f : Finding) : Json :=
  .object <|
    [("file".toList, .string f.signature.file),
      ("line".toList, .number f.signature.line),
      ("function".toList, .string f.signature.name),
      ("code".toList, .string f.fault.code)]
    ++ (f.fault.parameter?.map fun p => ("parameter".toList, Json.string p)).toList
    ++ [("message".toList, .string f.fault.message)]

/-- A comment issue as an object. -/
def issueJson (path : Text) (i : CommentIssue) : Json :=
  .object
    [("file".toList, .string path),
      ("line".toList, .number i.error.line),
      ("dialect".toList, .string i.dialect.word),
      ("message".toList, .string i.error.fault.message)]

/-- The output for machines, as a value. -/
def toJson (rs : List FileReport) : Json :=
  let findings := rs.flatMap (·.findings)
  let issues := rs.flatMap fun r => r.issues.map (issueJson r.path)
  .object
    [("summary".toList, .object
        [("files".toList, .number rs.length),
          ("declarations".toList, .number (total (·.declarations) rs)),
          ("comments".toList, .number (total (·.comments) rs)),
          ("diagnostics".toList, .number findings.length),
          ("comment_issues".toList, .number issues.length)]),
      ("diagnostics".toList, .array (findings.map findingJson)),
      ("comment_issues".toList, .array issues)]

def render (format : OutputFormat) (m : Manner) (rs : List FileReport) : Text :=
  match format with
  | .text => text m rs
  | .json => (toJson rs).pretty

end Summary
end DocAudit
