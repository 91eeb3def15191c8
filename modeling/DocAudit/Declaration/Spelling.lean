/-
  DocAudit.Declaration.Spelling
  ─────────────────────────────
  **ONE SPELLING FOR EACH TYPE.**

  A type is a run of tokens.  Its spelling joins them with a space where two of
  them would otherwise run together or read badly, and nowhere else: `char *`,
  `char **`, `const char *const`, `int (*)(int, char)`.
-/
import DocAudit.Declaration.Token

namespace DocAudit.Token

/-- Whether a space stands between two neighbouring tokens of a type. -/
def spaced (left right : Token) : Bool :=
  (left.isWordlike
      && (right.isWordlike || right.isMark '*' || right.isMark '(' || right.isMark '['))
    || left.isMark ','

/-- The spelling of a run of tokens. -/
def spell : List Token → Text
  | [] => []
  | [t] => t.text
  | t :: u :: rest => t.text ++ (if spaced t u then [' '] else []) ++ spell (u :: rest)

end DocAudit.Token
