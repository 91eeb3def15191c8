/-
  DocAudit.Path
  ─────────────
  **PATHS BY THEIR COMPONENTS.**

  A path is a text.  Two spellings name the same path when their components are
  equal: repeated slashes and `.` in the middle make no difference, but a `.` at
  the beginning does, so `a//b` is `a/./b` and `./b` is not `b`.  Paths are
  ordered by their components as well, which puts `a/b/c` before `a/b.c`.
-/
import DocAudit.Text.Basic

namespace DocAudit

/-- A step of a path. -/
inductive Component where
  /-- The root of the file system. -/
  | root
  /-- The directory itself, at the beginning of a path. -/
  | here
  /-- The directory above. -/
  | up
  /-- A name in the directory. -/
  | name (n : Text)
  deriving DecidableEq, Repr

namespace Component

/-- The text of a component between slashes. -/
def text : Component → Text
  | root => []
  | here => ['.']
  | up => ['.', '.']
  | name n => n

/-- The rank of a kind of component. -/
def rank : Component → Nat
  | root => 0
  | here => 1
  | up => 2
  | name _ => 3

/-- Order of texts: by the first character that differs, shorter first. -/
def textLe : Text → Text → Bool
  | [], _ => true
  | _ :: _, [] => false
  | a :: s, b :: t => a.toNat < b.toNat || (a == b && textLe s t)

/-- Order of components: by kind, then by name. -/
def le (a b : Component) : Bool :=
  match a, b with
  | name s, name t => textLe s t
  | _, _ => a.rank ≤ b.rank

end Component

namespace Path

/-! ## §1. Components. -/

/-- The component that a part between slashes stands for; an empty part and a `.`
stand for none. -/
def component? (part : Text) : Option Component :=
  if part = [] ∨ part = ['.'] then none
  else if part = ['.', '.'] then some .up
  else some (.name part)

def components (p : Text) : List Component :=
  let parts := Text.splitOn '/' p
  let others := parts.filterMap component?
  match parts with
  -- an empty first part stands before a slash
  | [] :: _ :: _ => .root :: others
  | ['.'] :: _ => .here :: others
  | _ => others

/-- The path with the given components. -/
def ofComponents : List Component → Text
  | .root :: rest => '/' :: Text.join ['/'] (rest.map Component.text)
  | cs => Text.join ['/'] (cs.map Component.text)

/-- Whether two texts name the same path. -/
def same (p q : Text) : Bool := components p == components q

/-! ## §2. Order. -/

/-- Order of lists of components: by the first one that differs, shorter first. -/
def componentsLe : List Component → List Component → Bool
  | [], _ => true
  | _ :: _, [] => false
  | a :: s, b :: t => if a = b then componentsLe s t else a.le b

/-- Order of paths. -/
def le (p q : Text) : Bool := componentsLe (components p) (components q)

/-- The list without the paths that name the same path as their predecessor. -/
def dropRepeats : List Text → List Text
  | [] => []
  | [p] => [p]
  | p :: q :: rest =>
    if same p q then dropRepeats (p :: rest) else p :: dropRepeats (q :: rest)
termination_by ps => ps.length

/-- Paths in order, each named once; of several spellings the first is kept. -/
def sorted (ps : List Text) : List Text := dropRepeats (ps.mergeSort le)

/-! ## §3. Parts of a path. -/

/-- The name of the file or directory that a path ends in. -/
def fileName? (p : Text) : Option Text :=
  match (components p).getLast? with
  | some (.name n) => some n
  | _ => none

/-- The part of a file name after its last point.  A point at the beginning does
not count. -/
def extensionOf? (name : Text) : Option Text :=
  let tail := (name.reverse.takeWhile (· != '.')).reverse
  if tail.length + 1 < name.length then some tail else none

def extension? (p : Text) : Option Text := (fileName? p).bind extensionOf?

/-- The components of the directory that holds a path, innermost first. -/
def outer (p : Text) : List Component := (components p).reverse.drop 1

/-- A name inside a directory; an absolute path stays as it is. -/
def join (dir name : Text) : Text :=
  if name.head? = some '/' then name
  else if dir = [] ∨ dir.getLast? = some '/' then dir ++ name
  else dir ++ '/' :: name

end Path
end DocAudit
