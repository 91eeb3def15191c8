/-
  DocAudit.Skeleton.Stub
  ──────────────────────
  **BLANKING BODIES WITHOUT MOVING ANYTHING.**

  What a C file declares stands outside its braces.  Stubbing blanks what
  stands inside them, character by character, so that every declaration keeps
  its line and its column:

      depth 0   `{` becomes `;`, every other character stays
      depth > 0  every character becomes a space

  The depth runs on from line to line.  Two rules look at whole lines: an
  include directive becomes an empty line and leaves the depth alone, and a
  line that begins with `typedef` once it is blanked is commented out.
-/
import DocAudit.Text.Basic

namespace DocAudit.Skeleton

/-! ## §1. One character. -/

/-- The depth after a character: an opening brace raises it, a closing brace
lowers it, and at depth zero a closing brace has nothing to close. -/
def depthAfter (depth : Nat) (c : Char) : Nat :=
  if c = '\x7b' then depth + 1 else if c = '\x7d' then depth - 1 else depth

/-- What stands in the skeleton for a character read at some depth.  Line feeds
are kept at every depth. -/
def blanked (depth : Nat) (c : Char) : Char :=
  if c = '\n' then c
  else if depth = 0 then (if c = '\x7b' then ';' else c)
  else ' '

/-! ## §2. One line. -/

/-- The characters of a line after blanking, begun at the given depth. -/
def blankLine (depth : Nat) : Text → Text
  | [] => []
  | c :: rest => blanked depth c :: blankLine (depthAfter depth c) rest

/-- The depth at the end of a text begun at the given depth. -/
def depthOver (depth : Nat) (t : Text) : Nat := t.foldl depthAfter depth

/-- Whether a line is an include directive. -/
def isInclude (line : Text) : Bool := "#include".toList.isPrefixOf line

/-- Whether a blanked line begins a type definition. -/
def isTypedef (line : Text) : Bool := "typedef".toList.isPrefixOf line

/-- What is put in front of a line to comment it out. -/
def commentMark : Text := "// ".toList

/-- The skeleton of one line that begins at the given depth. -/
def stubLine (depth : Nat) (line : Text) : Text :=
  if isInclude line then []
  else
    let blank := blankLine depth line
    if isTypedef blank then commentMark ++ blank else blank

/-- The depth after a line that begins at the given depth. -/
def depthAfterLine (depth : Nat) (line : Text) : Nat :=
  if isInclude line then depth else depthOver depth line

/-! ## §3. A run of lines. -/

/-- The skeletons of consecutive lines, the first of which begins at `depth`. -/
def stubFrom (depth : Nat) : List Text → List Text
  | [] => []
  | line :: rest => stubLine depth line :: stubFrom (depthAfterLine depth line) rest

/-- The skeleton of a whole file, one line for each of its lines. -/
def stubLines (ls : List Text) : List Text := stubFrom 0 ls

/-- Each line's skeleton together with the depth after it. -/
def stubTrace (depth : Nat) : List Text → List (Text × Nat)
  | [] => []
  | line :: rest =>
    let next := depthAfterLine depth line
    (stubLine depth line, next) :: stubTrace next rest

end DocAudit.Skeleton
