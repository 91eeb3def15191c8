/-
  DocAudit.Audit.IgnoreList
  ─────────────────────────
  **FUNCTIONS THAT ARE NOT REPORTED.**

  An ignore list names functions whose findings are dropped.  As a file it has
  one name on each line; empty lines and lines that begin with `#` are skipped.
-/
import DocAudit.Text.Basic

namespace DocAudit

/-- A set of function names, in order of their first appearance. -/
structure IgnoreList where
  /-- The names, each once. -/
  names : List Text := []
  deriving DecidableEq, Repr

namespace IgnoreList

def extend (l : IgnoreList) (names : List Text) : IgnoreList := ⟨Text.addNew l.names names⟩

/-- Read a list from the text of a file. -/
def ofText (t : Text) : IgnoreList :=
  extend {} (((Text.lines t).map Text.trim).filter fun line =>
    !line.isEmpty && line.head? != some '#')

/-- Whether a function is on the list. -/
def contains (l : IgnoreList) (name : Text) : Bool := l.names.contains name

/-- How many functions are on the list. -/
def size (l : IgnoreList) : Nat := l.names.length

def isEmpty (l : IgnoreList) : Bool := l.names.isEmpty

end IgnoreList
end DocAudit
