/-
  DocAudit.Comment.Draft
  ──────────────────────
  **A RECORD UNDER CONSTRUCTION.**

  Both dialects are read line by line.  A marker line opens an entry; a text line
  belongs to the entry that was opened last, or to the description when none was.
  The cursor says which it is.
-/
import DocAudit.Comment.Basic

namespace DocAudit

/-! ## §1. The cursor. -/

/-- Where a text line goes. -/
inductive Section where
  /-- Before the first entry. -/
  | description
  /-- In the entry of a parameter. -/
  | parameter
  /-- In the entry of the return value. -/
  | result
  deriving DecidableEq, Repr

/-- What a line introduces. -/
inductive Marker where
  /-- The entry of a parameter. -/
  | parameter
  /-- The entry of the return value. -/
  | result
  /-- Nothing: it is text. -/
  | text
  deriving DecidableEq, Repr

/-- The section after a line. -/
def Section.after (s : Section) : Marker → Section
  | .parameter => .parameter
  | .result => .result
  | .text => s

/-! ## §2. The draft. -/

/-- What has been read of a comment so far. -/
structure Draft where
  /-- The name of the definition, in the dialect that has one. -/
  name : Option Text := none
  /-- The section of the last marker. -/
  cursor : Section := .description
  /-- The lines of the description. -/
  description : List Text := []
  /-- The entries of parameters. -/
  params : List Param := []
  /-- The entry of the return value. -/
  returns : Option Param := none
  deriving DecidableEq, Repr

namespace Draft

/-- The list with its last member changed. -/
def updateLast {α : Type} (f : α → α) : List α → List α
  | [] => []
  | [a] => [f a]
  | a :: b :: rest => a :: updateLast f (b :: rest)

/-- Open the entry of a parameter. -/
def addParam (d : Draft) (p : Param) : Draft :=
  { d with cursor := d.cursor.after .parameter, params := d.params ++ [p] }

/-- Open the entry of the return value. -/
def setReturns (d : Draft) (p : Param) : Draft :=
  { d with cursor := d.cursor.after .result, returns := some p }

/-- Add a text line.  How a line is added to a parameter depends on the dialect. -/
def addText (toParam : Param → Text → Param) (d : Draft) (t : Text) : Draft :=
  match d.cursor.after .text with
  | .description => { d with description := d.description ++ [t] }
  | .parameter => { d with params := updateLast (toParam · t) d.params }
  | .result => { d with returns := d.returns.map (·.addComment t) }

/-- The finished record. -/
def toRecord (d : Draft) : DocRecord :=
  { name := d.name
    description := Text.trim (Text.join ['\n'] d.description)
    returns := d.returns
    params := d.params }

end Draft
end DocAudit
