/-
  DocAudit.Glob.Expression
  ────────────────────────
  **GLOBS AS REGULAR EXPRESSIONS.**

  Globs that have no simpler test are matched as regular expressions over bytes,
  and these may be nested only so deep.  A group counts for one level, and so does
  a choice between several alternatives, a row of several elements, a repetition, a
  class, and the union of several ranges in a class.

  A collection of globs is made all at once: those whose extension is looked at
  first are taken one by one, and the others together.
-/
import DocAudit.Glob.Test

namespace DocAudit.Glob

/-! ## §1. The text of an expression. -/

/-- The characters that stand for something else in an expression. -/
def metaCharacters : Text := "\\.+*?()|[]\x7b\x7d^$#&-~".toList

/-- A byte in an expression. -/
def byteText (b : UInt8) : Text :=
  if b < 0x80 then
    let c := Char.ofNat b.toNat
    if metaCharacters.contains c then ['\\', c] else [c]
  else "\\x".toList ++ Nat.toDigits 16 b.toNat

/-- A character in an expression. -/
def characterText (c : Char) : Text := (String.utf8EncodeChar c).flatMap byteText

/-- A range of a class in an expression. -/
def rangeText (r : Char × Char) : Text :=
  if r.1 = r.2 then characterText r.1 else characterText r.1 ++ '-' :: characterText r.2

mutual

/-- A part in an expression. -/
def Part.text : Part → Text
  | .literal c => characterText c
  | .any => ['.']
  | .star => ".*".toList
  | .leading => "(?:/?|.*/)".toList
  | .inner => "(?:/|/.*/)".toList
  | .trailing => "/.*".toList
  | .class negated ranges =>
    '[' :: (if negated then ['^'] else []) ++ ranges.flatMap rangeText ++ [']']
  | .branches alternatives =>
    match branchTexts alternatives with
    | [] => []
    | texts => "(?:".toList ++ Text.join ['|'] texts ++ [')']

/-- Parts in a row. -/
def partsText : List Part → Text
  | [] => []
  | p :: rest => p.text ++ partsText rest

/-- The alternatives that stand for something. -/
def branchTexts : List (List Part) → List Text
  | [] => []
  | ps :: rest => if partsVoid ps then branchTexts rest else partsText ps :: branchTexts rest

end

def expressionText (glob : List Part) : Text :=
  "(?-u)^".toList ++ (if matchesAll glob then ".*".toList else partsText glob) ++ ['$']

/-! ## §2. Its depth. -/

/-- The form of elements in a row: how many they are, and the depth of the deepest. -/
structure Row where
  /-- The number of elements. -/
  size : Nat
  /-- The levels below the row. -/
  below : Nat
  deriving DecidableEq, Repr

/-- Two rows, one after the other. -/
def Row.append (a b : Row) : Row := ⟨a.size + b.size, max a.below b.below⟩

/-- The levels of a row; a single element needs no level for the row. -/
def Row.depth (r : Row) : Nat := if 2 ≤ r.size then r.below + 1 else r.below

/-- The levels of a choice between rows of the given depths. -/
def choiceDepth (depths : List Nat) : Nat :=
  let deepest := depths.foldl max 0
  if 2 ≤ depths.length then deepest + 1 else deepest

mutual

/-- The elements of a part. -/
def Part.row : Part → Row
  | .literal c => ⟨c.utf8Size, 0⟩
  | .any => ⟨1, 0⟩
  | .star => ⟨1, 1⟩
  | .leading => ⟨1, 4⟩
  | .inner => ⟨1, 4⟩
  | .trailing => ⟨2, 1⟩
  | .class _ ranges => ⟨1, if 2 ≤ (ranges.flatMap byteRanges).length then 2 else 1⟩
  | .branches alternatives =>
    match branchDepths alternatives with
    | [] => ⟨0, 0⟩
    | depths => ⟨1, choiceDepth depths + 1⟩

/-- The elements of parts in a row. -/
def partsRow : List Part → Row
  | [] => ⟨0, 0⟩
  | p :: rest => p.row.append (partsRow rest)

/-- The depths of the alternatives that stand for something. -/
def branchDepths : List (List Part) → List Nat
  | [] => []
  | ps :: rest =>
    if partsVoid ps then branchDepths rest else (partsRow ps).depth :: branchDepths rest

end

/-- The greatest depth of an expression. -/
def depthLimit : Nat := 250

/-- Whether the expression of a glob is too deep.  It is a row, of which the glob is only
a part. -/
def isTooDeep (glob : List Part) : Bool := decide (depthLimit < (partsRow glob).below + 1)

/-! ## §3. Collections. -/

/-- Why a collection of globs cannot be made. -/
inductive CollectionFault where
  /-- One of the expressions that are taken together is too deep, the first at this place
  among them. -/
  | together (place : Nat)
  /-- An expression that is taken by itself is too deep. -/
  | alone (expression : Text)
  deriving DecidableEq, Repr

/-- The wording of a fault in a collection. -/
def CollectionFault.message : CollectionFault → Text
  | together place => "error parsing pattern ".toList ++ Text.ofNat place
  | alone expression =>
    "error parsing glob '".toList ++ expression ++ "': error parsing pattern 0".toList

/-- Why globs do not make a collection, if they do not. -/
def collectionFault? (globs : List (List Part)) : Option CollectionFault :=
  match (globs.filter fun g => test g == .extensionFirst).find? isTooDeep with
  | some glob => some (.alone (expressionText glob))
  | none =>
    ((globs.filter fun g => test g == .expression).findIdx? isTooDeep).map .together

end DocAudit.Glob
