/-
  DocAudit.Audit.Binding
  ──────────────────────
  **WHICH COMMENT DOCUMENTS WHICH DECLARATION.**

  Declarations are bound to records in two rounds, each to at most one record:

      first round    the first Doxygen record that ends right above it
      second round   only if some declaration is left: each of those gets the first
                     EDT record that bears its name, else the first EDT record that
                     ends right above it

  "Right above" is one of the two lines before the declaration.  What a declaration
  gets hangs on itself alone (`recordFor`), not on what the others got.
-/
import DocAudit.Record

namespace DocAudit

/-- A record and the line on which its comment ends. -/
structure LocatedRecord where
  /-- The last line of the comment. -/
  endLine : Nat
  /-- What the comment says. -/
  record : DocRecord
  deriving DecidableEq, Repr

/-- A declaration and the record bound to it, if any. -/
structure Binding where
  /-- The declaration. -/
  signature : Signature
  /-- The record. -/
  record : Option DocRecord
  deriving DecidableEq, Repr

namespace Binding

/-- How many lines above a declaration its comment may end. -/
def window : Nat := 2

/-- Whether a comment that ends on `endLine` stands right above `line`. -/
def inWindow (line endLine : Nat) : Bool := endLine < line && line ≤ endLine + window

/-- The first record that ends right above a line. -/
def above? (records : List LocatedRecord) (line : Nat) : Option DocRecord :=
  (records.find? fun r => inWindow line r.endLine).map (·.record)

/-- The first record that bears a name. -/
def named? (records : List LocatedRecord) (name : Text) : Option DocRecord :=
  (records.find? fun r => r.record.name == some name).map (·.record)

/-- The record of a declaration, chosen for it alone. -/
def recordFor (doxygen edt : List LocatedRecord) (s : Signature) : Option DocRecord :=
  (above? doxygen s.line).or ((named? edt s.name).or (above? edt s.line))

/-- The first round: Doxygen records, by position. -/
def byDoxygen (doxygen : List LocatedRecord) (s : Signature) : Binding :=
  ⟨s, above? doxygen s.line⟩

/-- The second round, for what is not bound yet: EDT records, by name and then by
position. -/
def orEdt (edt : List LocatedRecord) (b : Binding) : Binding :=
  if b.record.isSome then b
  else { b with record := (named? edt b.signature.name).or (above? edt b.signature.line) }

/-- Bind every declaration. -/
def bind (signatures : List Signature) (doxygen edt : List LocatedRecord) : List Binding :=
  let first := signatures.map (byDoxygen doxygen)
  if first.all (·.record.isSome) then first else first.map (orEdt edt)

end Binding
end DocAudit
