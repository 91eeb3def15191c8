/-
  DocAudit.Comment.Body
  ─────────────────────
  **THE TEXT INSIDE A COMMENT.**

  The body of a comment is its lines between the first and the last, each
  without its leading star and the blanks around what remains.  The delimiters
  are checked on the way, first the opening, then the stars from the top, last
  the closing; the first rule that is broken decides the error.
-/
import DocAudit.Comment.Basic

namespace DocAudit.Comment

/-- The text of a line after its star, if it has one. -/
def starred? (raw : Text) : Option Text :=
  match Text.trim raw with
  | '*' :: rest => some (Text.trim rest)
  | _ => none

/-- The texts of consecutive lines from number `n` on, or the first line without
a star. -/
def starredLines (n : Nat) : List Text → Except CommentError (List BodyLine)
  | [] => .ok []
  | raw :: rest =>
    match starred? raw with
    | none => .error ⟨n, .noStar⟩
    | some t => (starredLines (n + 1) rest).map (⟨n, t⟩ :: ·)

/-- Whether a last line closes a comment. -/
def closes (l : BodyLine) : Bool := l.text.getLast? == some '/'

/-- The body of a comment that must begin with the given opening. -/
def body (opening : Text) (c : Comment) : Except CommentError (List BodyLine) :=
  match c.lines with
  | [] => .error ⟨c.startLine, .empty⟩
  | first :: rest =>
    if Text.trim first ≠ opening then .error ⟨c.startLine, .wrongOpening opening⟩
    else
      match starredLines (c.startLine + 1) rest with
      | .error e => .error e
      | .ok ls =>
        match ls.getLast? with
        | some last =>
          if closes last then .ok ls.dropLast else .error ⟨c.endLine, .wrongClosing⟩
        | none => .error ⟨c.endLine, .wrongClosing⟩

end DocAudit.Comment
