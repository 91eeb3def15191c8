/-
  DocAudit.Declaration.Basic
  ──────────────────────────
  **WHAT A PARSE OF A SKELETON REPORTS.**

  A parse yields an `Outline`: the function declarations it found, and notes of
  graded severity.  A note of error severity or worse that quotes a name asks
  for that name to be made a type (`Outline.unknownTypes`).
-/
import DocAudit.Record

namespace DocAudit

/-! ## §1. Notes. -/

/-- How grave a note is. -/
inductive Severity where
  /-- A remark. -/
  | note
  /-- Something doubtful. -/
  | warning
  /-- Something wrong. -/
  | error
  /-- Something so wrong that the parse gave up. -/
  | fatal
  deriving DecidableEq, Repr

namespace Severity

/-- The word that stands for a severity. -/
def word : Severity → Text
  | note => "note".toList
  | warning => "warning".toList
  | error => "error".toList
  | fatal => "fatal".toList

/-- Whether the severity is that of an error or worse. -/
def isError : Severity → Bool
  | note => false
  | warning => false
  | error => true
  | fatal => true

end Severity

/-- A remark on one line of the skeleton. -/
structure Note where
  /-- How grave it is. -/
  severity : Severity
  /-- The line it is about. -/
  line : Nat
  /-- Its text. -/
  message : Text
  deriving DecidableEq, Repr

namespace Note

/-- Every second piece, as long as another piece follows it: given the pieces
between quotation marks, those that stand inside a closed pair. -/
def insidePairs : List Text → List Text
  | _ :: inside :: after :: rest => inside :: insidePairs (after :: rest)
  | _ => []

/-- The texts that a note puts between single quotes, in order. -/
def quoted (n : Note) : List Text := insidePairs (Text.splitOn '\'' n.message)

/-- Whether the note reports an error. -/
def isError (n : Note) : Bool := n.severity.isError

end Note

/-! ## §2. Declarations. -/

/-- A function declaration found in a skeleton. -/
structure Declaration where
  /-- The function's name. -/
  name : Text
  /-- The line of the name, counted from one. -/
  line : Nat
  /-- The spelling of the return type. -/
  returnType : Text
  /-- The parameters, in order: the spelling of the type, and the name. -/
  params : List (Text × Text)
  deriving DecidableEq, Repr

/-- The declaration as a signature of the file it was found in. -/
def Declaration.toSignature (file : Text) (d : Declaration) : Signature :=
  { name := d.name
    file
    line := d.line
    returns := Param.returning d.returnType
    params := d.params.map fun (typename, name) => Param.typed typename name }

/-! ## §3. Outlines. -/

/-- Everything that one parse reports. -/
structure Outline where
  /-- The declarations, in order. -/
  declarations : List Declaration := []
  /-- The notes, in order. -/
  notes : List Note := []
  deriving DecidableEq, Repr

namespace Outline

/-- Two outlines, one after the other. -/
def append (a b : Outline) : Outline :=
  ⟨a.declarations ++ b.declarations, a.notes ++ b.notes⟩

instance : Append Outline := ⟨append⟩

/-- The names quoted by errors, each once, in order of first appearance. -/
def unknownTypes (o : Outline) : List Text :=
  Text.distinct ((o.notes.filter Note.isError).flatMap Note.quoted)

/-- The declarations as signatures of a file. -/
def signatures (o : Outline) (file : Text) : List Signature :=
  o.declarations.map (Declaration.toSignature file)

/-- The first declaration of a function of the given name. -/
def signature? (o : Outline) (file name : Text) : Option Signature :=
  (o.signatures file).find? fun s => s.name == name

end Outline
end DocAudit
