/-
  DocAudit.Glob.Test
  ──────────────────
  **HOW A GLOB IS TESTED.**

  Most globs ask less than a search through the whole path, and are tested by what
  they ask:

      src/a.h     is the path this text?      **/a.[ch]   has its name this form?
      src/*       does it begin like this?    *.h         is its extension this text?
      **/src/a.h  does it end like this?      a*.h        has it this extension, at least?

  Only the globs of the last kind and those of no kind at all become expressions that
  are searched for in a path.  The test of a glob says nothing about its meaning.
-/
import DocAudit.Glob.Match

namespace DocAudit.Glob

/-! ## §1. Literal parts. -/

/-- The character that a part stands for, if it stands for one. -/
def Part.character? : Part → Option Char
  | .literal c => some c
  | _ => none

/-- The text of parts that are nothing but characters. -/
def literalText? (parts : List Part) : Option Text := parts.mapM Part.character?

/-- The characters that a glob ends in, up to its last other part. -/
def literalEnd (parts : List Part) : Text :=
  ((parts.reverse.takeWhile fun p => p.character?.isSome).filterMap Part.character?).reverse

/-- The parts after a pair of stars at the beginning. -/
def afterLeading : List Part → List Part
  | .leading :: rest => rest
  | parts => parts

/-- Whether a part stands for a character or a byte that is no slash. -/
def Part.staysInName : Part → Bool
  | .literal c => c != '/'
  | .class negated ranges => inRanges ranges slash == negated
  | _ => false

/-! ## §2. The tests. -/

/-- What is looked at to test a path. -/
inductive Test where
  /-- The file name, the extension, or the beginning, end or whole of the path. -/
  | comparison
  /-- The extension, and the whole path if it has the right one. -/
  | extensionFirst
  /-- The whole path. -/
  | expression
  deriving DecidableEq, Repr

/-- Whether a glob is any directories and then a name. -/
def isFileName : List Part → Bool
  | .leading :: rest => !rest.isEmpty && rest.all Part.staysInName
  | _ => false

def isText (parts : List Part) : Bool := (literalText? parts).any fun t => !t.isEmpty

/-- Whether a glob is a star and then an extension. -/
def isExtension (parts : List Part) : Bool :=
  match afterLeading parts with
  | .star :: .literal c :: rest =>
    c == '.' && (literalText? rest).any fun t => !t.contains '.' && !t.contains '/'
  | _ => false

/-- Whether a glob is a text and then anything. -/
def isBeginning (parts : List Part) : Bool :=
  match parts.getLast? with
  | some .trailing => (literalText? parts.dropLast).isSome
  | some .star => (literalText? parts.dropLast).any fun t => !t.isEmpty
  | _ => false

/-- Whether a glob is anything and then a text. -/
def isEnding (parts : List Part) : Bool :=
  match parts with
  | .leading :: .star :: rest => (literalText? rest).any fun t => !t.isEmpty && t != ['/']
  | .leading :: rest => (literalText? rest).any fun t => !t.isEmpty
  | .star :: rest => (literalText? rest).any fun t => !t.isEmpty && t != ['/']
  | _ => false

def endsInExtension (parts : List Part) : Bool :=
  let t := literalEnd parts
  let ext := (t.reverse.takeWhile (· != '.')).reverse
  decide (ext.length < t.length) && !ext.contains '/'

def test (parts : List Part) : Test :=
  if isFileName parts || isText parts || isExtension parts || isBeginning parts || isEnding parts
  then .comparison
  else if endsInExtension parts then .extensionFirst
  else .expression

end DocAudit.Glob
