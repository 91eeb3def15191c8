/-
  DocAudit.Skeleton.Basic
  ───────────────────────
  **THE SKELETON OF A SOURCE FILE.**

  A skeleton is the stubbed lines of a file and the names that are to be read
  as types although no line defines them.  Its text puts a definition of each
  such name in front of the first line and adds no line of its own, so that a
  line number of the text is a line number of the file.
-/
import DocAudit.Skeleton.Stub

namespace DocAudit

/-- Stubbed lines, and the names to be read as types. -/
structure Skeleton where
  /-- One line for each line of the source. -/
  lines : List Text
  /-- The names aliased to `int`, each once, oldest first. -/
  aliases : List Text := []
  deriving DecidableEq, Repr

namespace Skeleton

/-- The skeleton of a source text, with no aliases yet. -/
def ofSource (source : Text) : Skeleton := { lines := stubLines (Text.lines source) }

/-- Alias further names.  Only plain C identifiers can be aliased, and no name
is aliased twice. -/
def addAliases (s : Skeleton) (names : List Text) : Skeleton :=
  { s with aliases := Text.addNew s.aliases (names.filter Text.isIdentifier) }

/-- The definition that makes a name a type. -/
def aliasText (name : Text) : Text := "typedef int ".toList ++ name ++ [';']

/-- The text that is parsed: the aliases, then the lines. -/
def text (s : Skeleton) : Text := s.aliases.flatMap aliasText ++ s.lines.flatMap Text.line

end Skeleton
end DocAudit
