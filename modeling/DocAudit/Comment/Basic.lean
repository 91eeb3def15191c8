/-
  DocAudit.Comment.Basic
  ──────────────────────
  **DOCUMENTATION COMMENTS AND WHAT CAN BE WRONG WITH THEM.**

  A documentation comment is a block of lines between an opening line and a
  closing line.  The opening line decides the dialect.  A comment that breaks a
  rule of its dialect is refused with a `CommentError`, which names the rule and
  the source line; it costs that one comment and nothing else.
-/
import DocAudit.Record

namespace DocAudit

/-! ## §1. Dialects. -/

/-- The two ways to write a documentation comment. -/
inductive Dialect where
  /-- Blocks with `@param` and `@return` markers. -/
  | doxygen
  /-- Blocks with an `edt:` line and `Argument:` and `Return:` entries. -/
  | edt
  deriving DecidableEq, Repr

namespace Dialect

/-- The line that opens a block. -/
def opening : Dialect → Text
  | doxygen => "/**".toList
  | edt => "/*".toList

/-- The word that stands for a dialect. -/
def word : Dialect → Text
  | doxygen => "doxygen".toList
  | edt => "edt".toList

/-- The dialect that a word stands for. -/
def ofWord? (w : Text) : Option Dialect :=
  if w = word doxygen then some doxygen else if w = word edt then some edt else none

end Dialect

/-- The line that closes a block. -/
def closingLine : Text := " */".toList

/-! ## §2. Comments. -/

/-- A block comment as it stands in a file, its first and last line included. -/
structure Comment where
  /-- The line of its opening. -/
  startLine : Nat
  /-- The line of its closing. -/
  endLine : Nat
  /-- Its lines. -/
  lines : List Text
  deriving DecidableEq, Repr

/-- A line inside a comment, without the star and the blanks around its text. -/
structure BodyLine where
  /-- The source line. -/
  line : Nat
  /-- The text. -/
  text : Text
  deriving DecidableEq, Repr

/-! ## §3. Errors. -/

/-- The rules a comment can break. -/
inductive CommentFault where
  /-- It has no lines. -/
  | empty
  /-- Its first line is not the opening of the dialect. -/
  | wrongOpening (opening : Text)
  /-- A line after the first has no star. -/
  | noStar
  /-- Its last line does not close it. -/
  | wrongClosing
  /-- A parameter marker stands without a name. -/
  | paramWithoutName
  /-- There is a second return marker. -/
  | secondReturn
  /-- There is a second `edt:` line. -/
  | secondDefinition
  /-- An `edt:` line does not have the right number of fields. -/
  | definitionFields
  /-- There is a second `Return:` line. -/
  | secondReturnEntry
  /-- An `Argument:` line does not name one variable. -/
  | argumentNames
  deriving DecidableEq, Repr

/-- The wording of a broken rule. -/
def CommentFault.message : CommentFault → Text
  | empty => "Comment is empty".toList
  | wrongOpening opening => "First line is not ".toList ++ opening
  | noStar => "Line does not start with a *".toList
  | wrongClosing => "Last line is not */".toList
  | paramWithoutName => "Parameter line has no variable name".toList
  | secondReturn => "Found more than one return line".toList
  | secondDefinition => "Found more than one 'edt:' line".toList
  | definitionFields => "Definition line must have 3 fields after 'edt:'".toList
  | secondReturnEntry => "Found more than one 'Return:' line".toList
  | argumentNames => "Argument line must name exactly one variable".toList

/-- A broken rule and the source line that breaks it. -/
structure CommentError where
  /-- The source line. -/
  line : Nat
  /-- The rule. -/
  fault : CommentFault
  deriving DecidableEq, Repr

/-- A message about a line: `line <n>: <message>`. -/
def atLine (line : Nat) (message : Text) : Text :=
  "line ".toList ++ Text.ofNat line ++ ": ".toList ++ message

/-- The wording of a comment error. -/
def CommentError.message (e : CommentError) : Text := atLine e.line e.fault.message

end DocAudit
