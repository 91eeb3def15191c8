/-
  DocAudit.Comment.Template
  ─────────────────────────
  **THE COMMENT A DECLARATION SHOULD HAVE.**

  A template is a record made from a signature and written as a block.  It is meant
  to be put into the file right above the declaration: the block then ends on the
  line before it, and the declaration moves down by the length of the block.
-/
import DocAudit.Comment.Doxygen
import DocAudit.Comment.Edt

namespace DocAudit

/-- The block of a record in a dialect. -/
def DocRecord.render (r : DocRecord) (d : Dialect) (o : WrapOptions) : Text :=
  match d with
  | .doxygen => Doxygen.render r o
  | .edt => Edt.render r o

namespace Template

/-- The block that a template for a function consists of. -/
def block (d : Dialect) (o : WrapOptions) (s : Signature) : Text :=
  (DocRecord.ofSignature s).render d o

/-- A text with a block put in front of line `n`, counted from one. -/
def insertAbove (n : Nat) (block source : Text) : Text :=
  let ls := Text.splitOn '\n' source
  Text.join ['\n'] (ls.take (n - 1) ++ block :: ls.drop (n - 1))

/-- A source with the template of one of its functions above the declaration. -/
def apply (d : Dialect) (o : WrapOptions) (s : Signature) (source : Text) : Text :=
  insertAbove s.line (block d o s) source

end Template
end DocAudit
