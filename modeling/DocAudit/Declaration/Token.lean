/-
  DocAudit.Declaration.Token
  ──────────────────────────
  **LEXICAL PIECES, WITH THEIR LINES.**

  The lexer cuts a text into `Piece`s: tokens, and gaps, which are blanks,
  comments and preprocessor directives.  Nothing is lost between them,

      (pieces t).flatMap Piece.text = t          (`pieces_text`)

  so the line of a token is one more than the number of line feeds in the
  pieces before it.  Broken input has no special case: a literal ends at the
  end of its line at the latest, a comment at the end of the text.
-/
import DocAudit.Text.Basic

namespace DocAudit

/-! ## §1. Tokens and pieces. -/

/-- The four kinds of token. -/
inductive TokenKind where
  /-- An identifier or keyword. -/
  | word
  /-- A digit and the letters, digits and points after it. -/
  | number
  /-- A string or character literal, quotes included. -/
  | literal
  /-- Any other character, and the ellipsis. -/
  | mark
  deriving DecidableEq, Repr

/-- A token and the line it begins on. -/
structure Token where
  /-- What sort of token it is. -/
  kind : TokenKind
  /-- Its characters, as they stand in the text. -/
  text : Text
  /-- Its line, counted from one. -/
  line : Nat
  deriving DecidableEq, Repr

/-- A stretch of text that is one token, or that is skipped. -/
inductive Piece where
  /-- A token of the given kind. -/
  | token (kind : TokenKind) (text : Text)
  /-- Blanks, a comment or a directive. -/
  | gap (text : Text)
  deriving DecidableEq, Repr

namespace Piece

/-- The characters of a piece. -/
def text : Piece → Text
  | token _ t => t
  | gap t => t

/-! ## §2. Where a piece ends.

Each splitter returns the characters that belong to the piece and the rest. -/

/-- The rest of a directive: up to the end of the line, where a line that ends in
a backslash goes on. -/
def splitDirective : Text → Text × Text
  | [] => ([], [])
  | '\\' :: '\n' :: rest =>
    let (taken, left) := splitDirective rest
    ('\\' :: '\n' :: taken, left)
  | c :: rest =>
    if c = '\n' then ([], c :: rest)
    else
      let (taken, left) := splitDirective rest
      (c :: taken, left)

/-- The rest of a block comment, its closing `*/` included. -/
def splitBlock : Text → Text × Text
  | [] => ([], [])
  | '*' :: '/' :: rest => (['*', '/'], rest)
  | c :: rest =>
    let (taken, left) := splitBlock rest
    (c :: taken, left)

/-- The rest of a literal, its closing quote included.  A backslash protects the
character after it; an unprotected line feed ends the literal without belonging
to it. -/
def splitLiteral (quote : Char) : Text → Text × Text
  | [] => ([], [])
  | '\\' :: c :: rest =>
    let (taken, left) := splitLiteral quote rest
    ('\\' :: c :: taken, left)
  | c :: rest =>
    if c = '\n' then ([], c :: rest)
    else if c = quote then ([c], rest)
    else
      let (taken, left) := splitLiteral quote rest
      (c :: taken, left)

/-- A character that may continue a number. -/
def isNumberChar (c : Char) : Bool := c.isAlphanum || c == '.'

/-- The first piece of the text `c :: rest`, and what follows it. -/
def first (c : Char) (rest : Text) : Piece × Text :=
  if Text.isBlank c then (gap [c], rest)
  else if c = '#' then
    let (taken, left) := splitDirective rest
    (gap (c :: taken), left)
  else if c = '/' then
    match rest with
    | '/' :: r => (gap ('/' :: '/' :: r.takeWhile (· != '\n')), r.dropWhile (· != '\n'))
    | '*' :: r =>
      let (taken, left) := splitBlock r
      (gap ('/' :: '*' :: taken), left)
    | _ => (token .mark ['/'], rest)
  else if c = '"' ∨ c = '\'' then
    let (taken, left) := splitLiteral c rest
    (token .literal (c :: taken), left)
  else if Text.isNameStart c then
    (token .word (c :: rest.takeWhile Text.isNameChar), rest.dropWhile Text.isNameChar)
  else if c.isDigit then
    (token .number (c :: rest.takeWhile isNumberChar), rest.dropWhile isNumberChar)
  else if c = '.' then
    match rest with
    | '.' :: '.' :: r => (token .mark ['.', '.', '.'], r)
    | _ => (token .mark ['.'], rest)
  else (token .mark [c], rest)

/-! ## §3. Nothing is lost. -/

theorem splitDirective_append (t : Text) :
    (splitDirective t).1 ++ (splitDirective t).2 = t := by
  fun_induction splitDirective t <;> simp_all

theorem splitBlock_append (t : Text) : (splitBlock t).1 ++ (splitBlock t).2 = t := by
  fun_induction splitBlock t <;> simp_all

theorem splitLiteral_append (quote : Char) (t : Text) :
    (splitLiteral quote t).1 ++ (splitLiteral quote t).2 = t := by
  fun_induction splitLiteral quote t <;> simp_all

/-- The first piece and the rest make up the text. -/
theorem first_append (c : Char) (rest : Text) :
    (first c rest).1.text ++ (first c rest).2 = c :: rest := by
  unfold first
  split
  · rfl
  split
  · simp [text, splitDirective_append]
  split
  · next h =>
    subst h
    split <;> simp [text, splitBlock_append, List.takeWhile_append_dropWhile]
  split
  · simp [text, splitLiteral_append]
  split
  · simp [text, List.takeWhile_append_dropWhile]
  split
  · simp [text, List.takeWhile_append_dropWhile]
  split
  · next h =>
    subst h
    split <;> simp [text]
  · simp [text]

/-- A piece is never empty. -/
theorem text_first_ne_nil (c : Char) (rest : Text) : (first c rest).1.text ≠ [] := by
  unfold first
  repeat' split
  all_goals simp [text]

/-- The rest after the first piece is shorter than the text. -/
theorem length_first_lt (c : Char) (rest : Text) :
    (first c rest).2.length < (c :: rest).length := by
  have happ := congrArg List.length (first_append c rest)
  have hne := List.length_pos_iff.2 (text_first_ne_nil c rest)
  simp only [List.length_append] at happ
  omega

/-! ## §4. The lexer. -/

/-- Cut a text into its pieces. -/
def pieces : Text → List Piece
  | [] => []
  | c :: rest => (first c rest).1 :: pieces (first c rest).2
termination_by t => t.length
decreasing_by exact length_first_lt c rest

/-- The pieces of a text make it up. -/
theorem pieces_text (t : Text) : (pieces t).flatMap text = t := by
  fun_induction pieces t with
  | case1 => rfl
  | case2 c rest ih => simp [ih, first_append]

/-- The tokens among consecutive pieces, the first of which begins on `line`. -/
def tokensFrom (line : Nat) : List Piece → List Token
  | [] => []
  | token kind t :: rest => ⟨kind, t, line⟩ :: tokensFrom (line + Text.newlines t) rest
  | gap t :: rest => tokensFrom (line + Text.newlines t) rest

end Piece

namespace Token

def ofText (t : Text) : List Token := Piece.tokensFrom 1 (Piece.pieces t)

/-! ## §5. Words with a meaning. -/

/-- Keywords that may stand in the spelling of a type. -/
def typeWords : List Text :=
  ["void", "char", "short", "int", "long", "float", "double", "signed", "unsigned",
    "_Bool", "_Complex", "const", "volatile", "restrict", "__restrict", "struct",
    "union", "enum"].map String.toList

/-- Storage classes and function specifiers; they belong to no type. -/
def specifiers : List Text :=
  ["static", "extern", "inline", "__inline", "__inline__", "register", "auto",
    "_Noreturn", "_Thread_local"].map String.toList

/-- Keywords after which a name is a tag and never a type of its own. -/
def tagWords : List Text := ["struct", "union", "enum"].map String.toList

/-- The keyword of a type definition. -/
def typedefWord : Text := "typedef".toList

/-- Whether a word is a keyword. -/
def isKeyword (w : Text) : Bool :=
  w == typedefWord || typeWords.contains w || specifiers.contains w

/-- Whether the token is the given mark. -/
def isMark (t : Token) (c : Char) : Bool := t.kind == .mark && t.text == [c]

def isEllipsis (t : Token) : Bool := t.kind == .mark && t.text == ['.', '.', '.']

/-- Whether the token is a word that is no keyword. -/
def isName (t : Token) : Bool := t.kind == .word && !isKeyword t.text

/-- Whether the token is a word, number or literal, which needs a space between
itself and another such token. -/
def isWordlike (t : Token) : Bool := t.kind != .mark

/-- Whether the token is one of the keywords that a tag follows. -/
def isTagWord (t : Token) : Bool := tagWords.contains t.text

/-- Whether the token is a storage class or function specifier. -/
def isSpecifier (t : Token) : Bool := specifiers.contains t.text

end Token
end DocAudit
