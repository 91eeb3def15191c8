/-
  DocAudit.Comment.Block
  ──────────────────────
  **WRITING A BLOCK COMMENT.**

  Free text becomes a block: an opening line, the wrapped lines with ` * ` before
  each, and a closing line.  The width of the block is that of the finished
  lines, so the text gets three characters less.
-/
import DocAudit.Comment.Basic
import DocAudit.Comment.Wrap

namespace DocAudit.Block

open Text

/-- The number of characters before the text of a line. -/
def markWidth : Nat := 3

/-- A piece of text as a line of a block; an empty piece leaves no blank behind. -/
def blockLine (piece : Text) : Text :=
  if piece = [] then " *".toList else " * ".toList ++ piece

/-- The text without the line feed at its end, if it has one. -/
def dropFinalNewline (t : Text) : Text :=
  if t.getLast? = some '\n' then t.dropLast else t

/-- The pieces into which the lines of a text are wrapped. -/
def pieces (t : Text) (o : WrapOptions) : List Text :=
  (splitOn '\n' (dropFinalNewline t)).flatMap fun line =>
    Wrap.wrapLine line (o.width - markWidth) o.indent false

/-- The lines of the block that holds a text. -/
def blockLines (t opening : Text) (o : WrapOptions) : List Text :=
  opening :: (pieces t o).map blockLine ++ [closingLine]

/-- The block that holds a text. -/
def render (t opening : Text) (o : WrapOptions) : Text := join ['\n'] (blockLines t opening o)

/-- What a template writes for an empty description. -/
def descriptionSlot : Text := "<Description>".toList

/-- What a template writes for a missing comment. -/
def commentSlot : Text := "<Comment>".toList

/-- A description, or its placeholder when it is blank. -/
def descriptionOr (t : Text) : Text := if isAllBlank t then descriptionSlot else t

/-- A comment, or its placeholder when there is none. -/
def commentOr (c : Option Text) : Text := c.getD commentSlot

end DocAudit.Block
