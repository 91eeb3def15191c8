/-
  DocAudit.Glob.Match
  ───────────────────
  **WHICH PATHS A GLOB MATCHES.**

  A glob matches the whole of a path, byte by byte in its UTF-8 encoding.  The
  meaning of a part is what it does to a set of positions in the path: where it
  may end if it begins at one of them.  A path is matched when its end can be
  reached from its beginning.
-/
import DocAudit.Glob.Pattern
import DocAudit.Text.Marks

namespace DocAudit.Glob

/-! ## §1. Bytes. -/

/-- The byte of a slash. -/
def slash : UInt8 := 0x2F

/-- Whether a byte is a slash. -/
def isSlash (b : UInt8) : Bool := b == slash

/-- Whether something is a byte, which everything is. -/
def isByte (_ : UInt8) : Bool := true

/-- The byte ranges of a range of characters.  A character of several bytes counts
as each of them, and the range runs from its neighbours' bytes. -/
def byteRanges (r : Char × Char) : List (UInt8 × UInt8) :=
  let low := String.utf8EncodeChar r.1
  let high := String.utf8EncodeChar r.2
  if r.1 = r.2 then low.map fun b => (b, b)
  else
    -- only the bytes on either side of the dash make a range
    low.dropLast.map (fun b => (b, b))
      ++ [(low.getLast?.getD 0, high.head?.getD 0)]
      ++ (high.drop 1).map fun b => (b, b)

/-- Whether a byte is in one of the ranges. -/
def inRanges (ranges : List (Char × Char)) (b : UInt8) : Bool :=
  (ranges.flatMap byteRanges).any fun (low, high) => low ≤ b && b ≤ high

/-! ## §2. Where a part may end. -/

mutual

/-- Whether a part stands for nothing at all, as a group of empty alternatives
does. -/
def Part.isVoid : Part → Bool
  | .branches alternatives => allVoid alternatives
  | _ => false

/-- Whether all parts stand for nothing at all. -/
def partsVoid : List Part → Bool
  | [] => true
  | p :: rest => p.isVoid && partsVoid rest

/-- Whether all alternatives stand for nothing at all. -/
def allVoid : List (List Part) → Bool
  | [] => true
  | ps :: rest => partsVoid ps && allVoid rest

end

mutual

/-- Where a part may end in a path, if it begins at one of some positions.  Empty
alternatives do not count, and a group without others is skipped. -/
def Part.move (path : List UInt8) (m : Marks) : Part → Marks
  | .literal c => m.overAll (String.utf8EncodeChar c) path
  | .any => m.overOne isByte path
  | .star => m.overAny isByte path
  | .leading => m.union ((m.overAny isByte path).overOne isSlash path)
  | .inner =>
    let below := m.overOne isSlash path
    below.union ((below.overAny isByte path).overOne isSlash path)
  | .trailing => (m.overOne isSlash path).overAny isByte path
  | .class negated ranges => m.overOne (fun b => inRanges ranges b != negated) path
  | .branches alternatives => if allVoid alternatives then m else branchesMove path m alternatives

/-- Where parts in a row may end. -/
def partsMove (path : List UInt8) (m : Marks) : List Part → Marks
  | [] => m
  | p :: rest => partsMove path (p.move path m) rest

/-- Where one of the alternatives may end. -/
def branchesMove (path : List UInt8) (m : Marks) : List (List Part) → Marks
  | [] => Marks.empty path
  | ps :: rest =>
    let others := branchesMove path m rest
    if partsVoid ps then others else (partsMove path m ps).union others

end

/-! ## §3. Matching. -/

/-- Whether a glob is a pair of stars and nothing else; it matches every path. -/
def matchesAll : List Part → Bool
  | [.leading] => true
  | _ => false

def isMatch (glob : List Part) (path : Text) : Bool :=
  let bytes := path.utf8
  matchesAll glob || (partsMove bytes (Marks.start bytes) glob).atEnd

end DocAudit.Glob
