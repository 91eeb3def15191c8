/-
  DocAudit.Glob.Pattern
  ─────────────────────
  **READING A GLOB.**

      ?        any one byte           *        any number of bytes
      [a-z]    one of these           [!a-z]   none of these
      {a,b}    one of these globs     \c       the character itself

  Two stars that make up a whole path component span directories: `**/` at the
  beginning, `/**/` in the middle and `/**` at the end.  Any other pair of stars
  is two single ones.
-/
import DocAudit.Text.Basic

namespace DocAudit.Glob

/-! ## §1. Patterns. -/

/-- An element of a glob. -/
inductive Part where
  /-- The character itself. -/
  | literal (c : Char)
  /-- One byte. -/
  | any
  /-- Any number of bytes. -/
  | star
  /-- Any directories before what follows. -/
  | leading
  /-- Any directories between what precedes and what follows. -/
  | inner
  /-- Anything below what precedes. -/
  | trailing
  /-- A byte in one of the ranges, or in none of them. -/
  | class (negated : Bool) (ranges : List (Char × Char))
  /-- One of several globs. -/
  | branches (alternatives : List (List Part))

/-- What can be wrong with a glob. -/
inductive Fault where
  /-- A `[` is not closed. -/
  | unclosedClass
  /-- The ends of a range are in the wrong order. -/
  | invalidRange (low high : Char)
  /-- A closing brace has nothing to close. -/
  | unopenedBranches
  /-- An opening brace is not closed. -/
  | unclosedBranches
  /-- A backslash ends the glob. -/
  | danglingEscape
  deriving DecidableEq, Repr

/-- The wording of a fault. -/
def Fault.message : Fault → Text
  | unclosedClass => "unclosed character class; missing ']'".toList
  | invalidRange low high =>
    "invalid range; '".toList ++ [low] ++ "' > '".toList ++ [high] ++ ['\'']
  | unopenedBranches =>
    "unopened alternate group; missing '\x7b' (maybe escape '\x7d' with '[\x7d]'?)".toList
  | unclosedBranches =>
    "unclosed alternate group; missing '\x7d' (maybe escape '\x7b' with '[\x7b]'?)".toList
  | danglingEscape => "dangling '\\'".toList

/-- The wording of a fault in a given glob. -/
def Fault.describe (glob : Text) (f : Fault) : Text :=
  "error parsing glob '".toList ++ glob ++ "': ".toList ++ f.message

/-! ## §2. Character classes. -/

/-- Make `c` the upper end of the last range, which comes first in the list. -/
def closeRange (c : Char) : List (Char × Char) → Except Fault (List (Char × Char))
  | [] => .ok [(c, c)]
  | (low, _) :: rest =>
    if c.toNat < low.toNat then .error (.invalidRange low c) else .ok ((low, c) :: rest)

/-- Read the members of a class up to its `]`.  The first member may be `]` or `-`
itself; elsewhere a `-` makes a range of its neighbours, and one that has no right
neighbour stands for itself.  Ranges are listed from last to first. -/
def classRanges (isFirst inRange : Bool) (ranges : List (Char × Char)) :
    Text → Except Fault (List (Char × Char) × Text)
  | [] => .error .unclosedClass
  | c :: rest =>
    if c = ']' ∧ !isFirst then .ok (if inRange then ('-', '-') :: ranges else ranges, rest)
    else if c = '-' ∧ !isFirst ∧ !inRange then classRanges false true ranges rest
    else if inRange then
      match closeRange c ranges with
      | .error f => .error f
      | .ok closed => classRanges false false closed rest
    else classRanges false false ((c, c) :: ranges) rest

theorem length_classRanges_lt {isFirst inRange : Bool} {ranges out : List (Char × Char)}
    {t rest : Text} (h : classRanges isFirst inRange ranges t = .ok (out, rest)) :
    rest.length < t.length := by
  induction t generalizing isFirst inRange ranges with
  | nil => simp [classRanges] at h
  | cons c t ih =>
    simp only [classRanges] at h
    split at h
    · cases h; simp
    · split at h
      · have := ih h; simp only [List.length_cons]; omega
      · split at h
        · split at h
          · cases h
          · have := ih h; simp only [List.length_cons]; omega
        · have := ih h; simp only [List.length_cons]; omega

/-- Read a class after its `[`. -/
def class? (t : Text) : Except Fault (Part × Text) :=
  let negated := t.head? = some '!' ∨ t.head? = some '^'
  match classRanges true false [] (if negated then t.drop 1 else t) with
  | .error f => .error f
  | .ok (ranges, rest) => .ok (.class (decide negated) ranges.reverse, rest)

theorem length_class?_lt {t rest : Text} {p : Part} (h : class? t = .ok (p, rest)) :
    rest.length < t.length + 1 := by
  simp only [class?] at h
  split at h
  · cases h
  · next out r hr =>
    cases h
    have hlt := length_classRanges_lt hr
    split at hlt
    · simp only [List.length_drop] at hlt; omega
    · omega

/-! ## §3. Branches. -/

/-- An open group: its finished alternatives, and the parts before it.  Both are
listed from last to first, as are the parts read so far. -/
structure Group where
  /-- The finished alternatives. -/
  finished : List (List Part)
  /-- The parts of the surrounding alternative. -/
  before : List Part

/-- What has been read of a glob. -/
structure Draft where
  /-- The parts of the alternative being read. -/
  parts : List Part := []
  /-- The open groups, innermost first. -/
  groups : List Group := []

namespace Draft

/-- Add a part. -/
def push (d : Draft) (p : Part) : Draft := { d with parts := p :: d.parts }

/-- Begin a group. -/
def openGroup (d : Draft) : Draft := ⟨[], ⟨[], d.parts⟩ :: d.groups⟩

/-- A comma: the next alternative inside a group, itself outside of one. -/
def comma (d : Draft) : Draft :=
  match d.groups with
  | [] => d.push (.literal ',')
  | g :: gs => ⟨[], { g with finished := d.parts.reverse :: g.finished } :: gs⟩

/-- End a group. -/
def closeGroup (d : Draft) : Except Fault Draft :=
  match d.groups with
  | [] => .error .unopenedBranches
  | g :: gs => .ok ⟨.branches ((d.parts.reverse :: g.finished).reverse) :: g.before, gs⟩

/-- The finished glob. -/
def finish (d : Draft) : Except Fault (List Part) :=
  if d.groups.isEmpty then .ok d.parts.reverse else .error .unclosedBranches

/-- Two stars that mean no more than two stars. -/
def twoStars (d : Draft) : Draft := (d.push .star).push .star

/-- Put `p` in the place of the slash before it.  Directories that are already
spanned need not be spanned again. -/
def spanning (d : Draft) (p : Part) : Draft :=
  match d.parts with
  | .leading :: _ => d
  | .trailing :: _ => d
  | _ :: rest => { d with parts := p :: rest }
  | [] => d.push p

/-- Read a pair of stars, given the characters before and after it.  The flag
says whether the character after it is a slash that belongs to the pair. -/
def doubleStar (d : Draft) (before after : Option Char) : Draft × Bool :=
  let grouped := !d.groups.isEmpty
  if d.parts.isEmpty then
    -- at the beginning of the glob or of an alternative
    if after = none ∨ after = some '/' then (d.push .leading, true) else (d.twoStars, false)
  else if before ≠ some '/' ∧ (!grouped ∨ (before ≠ some ',' ∧ before ≠ some '\x7b')) then
    -- not at the beginning of a path component
    (d.twoStars, false)
  else if after = some '/' then (d.spanning .inner, true)
  else if after = none ∨ (grouped ∧ (after = some ',' ∨ after = some '\x7d')) then
    (d.spanning .trailing, false)
  else (d.twoStars, false)

end Draft

/-! ## §4. The reader. -/

/-- Read a glob from where `before` was the last character. -/
def readFrom (d : Draft) (before : Option Char) : Text → Except Fault (List Part)
  | [] => d.finish
  | '*' :: '*' :: rest =>
    match d.doubleStar before rest.head? with
    | (next, true) => readFrom next (some '/') (rest.drop 1)
    | (next, false) => readFrom next (some '*') rest
  | '\\' :: rest =>
    match rest with
    | [] => .error .danglingEscape
    | c :: rest => readFrom (d.push (.literal c)) (some c) rest
  | c :: rest =>
    if c = '?' then readFrom (d.push .any) (some c) rest
    else if c = '*' then readFrom (d.push .star) (some c) rest
    else if c = '[' then
      match _h : class? rest with
      | .error f => .error f
      | .ok (p, rest) => readFrom (d.push p) (some ']') rest
    else if c = '\x7b' then readFrom d.openGroup (some c) rest
    else if c = '\x7d' then
      match d.closeGroup with
      | .error f => .error f
      | .ok next => readFrom next (some c) rest
    else if c = ',' then readFrom d.comma (some c) rest
    else readFrom (d.push (.literal c)) (some c) rest
termination_by t => t.length
decreasing_by
  all_goals simp only [List.length_cons, List.length_drop]
  all_goals first
    | omega
    | exact length_class?_lt (by assumption)

/-- Read a glob. -/
def parse (t : Text) : Except Fault (List Part) := readFrom {} none t

end DocAudit.Glob
