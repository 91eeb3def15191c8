/-
  DocAudit.Audit.Report
  ─────────────────────
  **CHECKING ONE FILE.**

  A file is checked in one pass over two views of it: its skeleton yields the
  declarations, its lines yield the comments of both dialects.  Records are bound
  to declarations and compared with them.  A comment that cannot be read is an
  issue of its own and documents nothing.
-/
import DocAudit.Audit.Finding
import DocAudit.Audit.IgnoreList
import DocAudit.Comment.Doxygen
import DocAudit.Comment.Edt
import DocAudit.Comment.Locate
import DocAudit.Resolution

namespace DocAudit

/-! ## §1. Reading the comments. -/

/-- A comment that could not be read. -/
structure CommentIssue where
  /-- The dialect in which it was read. -/
  dialect : Dialect
  /-- What is wrong with it. -/
  error : CommentError
  deriving DecidableEq, Repr

/-- The wording of an issue. -/
def CommentIssue.message (i : CommentIssue) : Text :=
  "malformed ".toList ++ i.dialect.word ++ " comment at ".toList ++ i.error.message

/-- The records of the comments of one dialect, and the comments that have none
because they are malformed. -/
structure Reading where
  /-- The records, in order. -/
  records : List LocatedRecord
  /-- The issues, in order. -/
  issues : List CommentIssue

namespace Reading

/-- The record that a comment yields in a dialect, if it yields any. -/
def recordOf (d : Dialect) (c : Comment) : Except CommentError (Option DocRecord) :=
  match d with
  | .doxygen => (Doxygen.parse c).map some
  | .edt => Edt.parse c

def located? (d : Dialect) (c : Comment) : Option LocatedRecord :=
  match recordOf d c with
  | .ok (some r) => some ⟨c.endLine, r⟩
  | _ => none

def issue? (d : Dialect) (c : Comment) : Option CommentIssue :=
  match recordOf d c with
  | .error e => some ⟨d, e⟩
  | _ => none

/-- Read all comments of a dialect. -/
def ofLines (d : Dialect) (ls : List Text) : Reading :=
  let cs := Comment.locate d ls
  ⟨cs.filterMap (located? d), cs.filterMap (issue? d)⟩

end Reading

/-! ## §2. The report. -/

/-- Everything that was learned about a file. -/
structure FileReport where
  /-- The path of the file, as it was given. -/
  path : Text
  /-- How many functions it declares. -/
  declarations : Nat
  /-- How many documentation records it holds. -/
  comments : Nat
  /-- The disagreements, in order of declaration. -/
  findings : List Finding
  /-- The malformed comments, Doxygen before EDT. -/
  issues : List CommentIssue
  /-- The names aliased to `int` to parse the file. -/
  aliases : List Text
  /-- The notes of the last parse. -/
  notes : List Note
  /-- How many parses it took. -/
  passes : Nat
  deriving DecidableEq, Repr

namespace FileReport

/-- Check a source text, given its resolution. -/
def ofResolution (path source : Text) (r : Resolution) : FileReport :=
  let ls := Text.lines source
  let doxygen := Reading.ofLines .doxygen ls
  let edt := Reading.ofLines .edt ls
  let bindings := Binding.bind (r.outline.signatures path) doxygen.records edt.records
  { path
    declarations := bindings.length
    comments := doxygen.records.length + edt.records.length
    findings := Finding.ofBindings bindings
    issues := doxygen.issues ++ edt.issues
    aliases := r.skeleton.aliases
    notes := r.outline.notes
    passes := r.passes }

/-- Check a source text with the built-in scanner. -/
def ofSource (path source : Text) : FileReport :=
  ofResolution path source (Resolution.ofSource source)

/-- Whether nothing was found. -/
def isClean (r : FileReport) : Bool := r.findings.isEmpty

/-- The report without the findings on ignored functions. -/
def ignoring (l : IgnoreList) (r : FileReport) : FileReport :=
  { r with findings := r.findings.filter fun f => !l.contains f.signature.name }

end FileReport
end DocAudit
