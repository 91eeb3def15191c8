/-
  DocAudit.Layout
  ───────────────
  **LAYING OUT A SIGNATURE IN COLUMNS.**

  Each parameter stands on its own line, below the first character after the
  opening bracket.  Types, stars and names line up in columns of their own:

      int
      fry (int    count,
           pan_t *pan)

  A definition has its return type on a line of its own and a space before the
  bracket; a prototype begins with its return type and ends in `);`.  Widths are
  counted in bytes.
-/
import DocAudit.Record

namespace DocAudit.Layout

open Text

/-! ## §1. Columns. -/

/-- A parameter, taken apart into what gets a column of its own. -/
structure Column where
  /-- The type without its stars and bounds. -/
  base : Text
  /-- The number of stars at the end of the type. -/
  stars : Nat
  /-- The name. -/
  name : Text
  /-- The array bounds, which follow the name. -/
  bounds : Text
  deriving DecidableEq, Repr

/-- What stands for the place of the name in a function pointer type. -/
def pointerSlot : Text := "(*)".toList

namespace Column

/-- A type and its array bounds.  The bounds inside a function pointer type
belong to the type. -/
def splitBounds (t : Text) : Text × Text :=
  if occursIn pointerSlot t then (t, [])
  else (t.takeWhile (· != '['), t.dropWhile (· != '['))

/-- Take a parameter apart. -/
def ofParam (p : Param) : Column :=
  let (type, bounds) := splitBounds (trim (p.typename.getD []))
  let type := trimEnd type
  let core := dropEndWhile (· == '*') type
  { base := trimEnd core, stars := type.length - core.length, name := p.name, bounds }

/-- Whether the name stands inside the type. -/
def isFunctionPointer (c : Column) : Bool := occursIn pointerSlot c.base

/-- The text of a parameter when types are `typeWidth` bytes wide and stars take
`starWidth`. -/
def text (typeWidth starWidth : Nat) (c : Column) : Text :=
  if c.isFunctionPointer then replaceFirst pointerSlot ("(*".toList ++ c.name ++ [')']) c.base
  else
    let pad := typeWidth + 1 + starWidth - byteWidth c.base - c.stars
    c.base ++ spaces pad ++ List.replicate c.stars '*' ++ c.name ++ c.bounds

end Column

/-! ## §2. Signatures. -/

/-- The greatest number of a list, zero if it is empty. -/
def widest (ns : List Nat) : Nat := ns.foldl max 0

/-- The two forms of a layout. -/
inductive Form where
  /-- The head of a definition. -/
  | definition
  /-- A prototype for a header. -/
  | prototype
  deriving DecidableEq, Repr

/-- What ends a layout. -/
def Form.closing : Form → Text
  | definition => [')']
  | prototype => ");".toList

/-- The return type as it is written. -/
def returnType (s : Signature) : Text := trim (s.returns.typename.getD [])

/-- The text before the line of the opening bracket. -/
def lead (f : Form) (s : Signature) : Text :=
  match f with
  | .definition => line (returnType s)
  | .prototype => []

/-- The text up to the opening bracket, on the line of the bracket. -/
def opening (f : Form) (s : Signature) : Text :=
  match f with
  | .definition => s.name ++ " (".toList
  | .prototype => returnType s ++ [' '] ++ s.name ++ ['(']

/-- The parameters, each without blanks at its end. -/
def entries (s : Signature) : List Text :=
  let columns := s.params.map Column.ofParam
  let aligned := columns.filter (!·.isFunctionPointer)
  let typeWidth := widest (aligned.map fun c => byteWidth c.base)
  let starWidth := widest (aligned.map (·.stars))
  columns.map fun c => trimEnd (c.text typeWidth starWidth)

/-- What stands between the brackets. -/
def inside (f : Form) (s : Signature) : Text :=
  if s.params.isEmpty then "void".toList
  else join (",\n".toList ++ spaces (byteWidth (opening f s))) (entries s)

/-- Lay out a signature. -/
def render (f : Form) (s : Signature) : Text :=
  lead f s ++ opening f s ++ inside f s ++ f.closing

end DocAudit.Layout
