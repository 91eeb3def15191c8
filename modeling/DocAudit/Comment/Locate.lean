/-
  DocAudit.Comment.Locate
  ───────────────────────
  **FINDING THE BLOCKS OF A DIALECT.**

  With trailing blanks removed, a line that equals the opening of the dialect
  opens a block and a line that equals ` */` closes it.  An opening inside an
  open block begins the block anew, and a block that is never closed is none.
-/
import DocAudit.Comment.Basic

namespace DocAudit.Comment

/-- An open block: the line of its opening, and its lines so far. -/
structure Open where
  /-- The line of the opening. -/
  startLine : Nat
  /-- The lines so far, the opening included. -/
  lines : List Text

/-- The comments among the lines from number `n` on, given the open block. -/
def locateFrom (d : Dialect) : Nat → Option Open → List Text → List Comment
  | _, _, [] => []
  | n, state, raw :: rest =>
    let line := Text.trimEnd raw
    if line = d.opening then locateFrom d (n + 1) (some ⟨n, [line]⟩) rest
    else
      match state with
      | none => locateFrom d (n + 1) none rest
      | some o =>
        if line = closingLine then
          ⟨o.startLine, n, o.lines ++ [line]⟩ :: locateFrom d (n + 1) none rest
        else locateFrom d (n + 1) (some ⟨o.startLine, o.lines ++ [line]⟩) rest

/-- The comments of a dialect in a list of lines, in order. -/
def locate (d : Dialect) (ls : List Text) : List Comment := locateFrom d 1 none ls

end DocAudit.Comment
