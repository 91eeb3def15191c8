/-
  DocAudit.Comment.Reference
  ──────────────────────────
  **COMMENTS THAT POINT ELSEWHERE.**

  A line points elsewhere when it names a header file and uses one of the
  reference phrases, or when it says that it implements a callback:

      … see egg.h …          … for documentation … pan/egg.h …
      … implements fry_cb …

  Letters are compared without regard to case, a space of a phrase stands for
  one blank or more, and what is found must begin and end at word boundaries.
  What is looked for is a list of steps, and a search moves the set of all
  boundaries of a line over them.
-/
import DocAudit.Comment.Basic
import DocAudit.Text.WordChar
import DocAudit.Text.Fold

namespace DocAudit.Reference

open Text

/-! ## §1. Steps of a search. -/

/-- What a search moves over at once. -/
inductive Step where
  /-- One character of a class. -/
  | one (p : Char → Bool)
  /-- One character of a class or more. -/
  | run (p : Char → Bool)
  /-- Any number of characters of a class. -/
  | any (p : Char → Bool)

/-- Move positions of a line over a step. -/
def Step.move (line : Text) (m : Marks) : Step → Marks
  | one p => m.overOne p line
  | run p => m.overRun p line
  | any p => m.overAny p line

/-- Whether the steps lead from one word boundary of a line to another. -/
def isFound (steps : List Step) (line : Text) : Bool :=
  let edges := boundaries line
  ((steps.foldl (Step.move line) edges).inter edges).isInhabited

def phrase (t : Text) : List Step :=
  t.map fun c => if c = ' ' then .run isBlank else .one (sameLetter c)

/-! ## §2. What is looked for. -/

/-- A character of a header's path, in any case. -/
def isPathChar (c : Char) : Bool :=
  let f := fold c
  f.isAlphanum || f == '_' || f == '.' || f == '/' || f == '-'

/-- A character that may begin a callback's name, in any case. -/
def isCallbackStart (c : Char) : Bool := isNameStart (fold c)

/-- A character of a callback's name, in any case. -/
def isCallbackChar (c : Char) : Bool := isNameChar (fold c)

/-- The name of a header file: at least one path character before its `.h`. -/
def header : List Step := .run isPathChar :: phrase ".h".toList

/-- The statement that something implements a callback: its name begins as an identifier
does and ends in `_cb`. -/
def implementing : List Step :=
  phrase "implements ".toList
    ++ [.one isCallbackStart, .any isCallbackChar]
    ++ phrase "_cb".toList

/-! ## §3. Lines and comments. -/

/-- The phrases that point elsewhere in every comment. -/
def basePhrases : List Text :=
  ["function description", "for documentation", "see"].map String.toList

/-- The phrases of a classifier that knows `extra` ones. -/
def phrasesWith (extra : List Text) : List Text := basePhrases ++ extra

/-- The further phrases of a dialect, as in `EDT in egg.h`. -/
def extraPhrases : Dialect → List Text
  | .doxygen => []
  | .edt => ["edt in".toList]

/-- Whether a line points elsewhere. -/
def isReferenceLine (extra : List Text) (line : Text) : Bool :=
  (isFound header line && (phrasesWith extra).any fun p => isFound (phrase p) line)
    || isFound implementing line

/-- Whether one of these lines points elsewhere. -/
def isReference (extra : List Text) (ls : List Text) : Bool := ls.any (isReferenceLine extra)

end DocAudit.Reference
