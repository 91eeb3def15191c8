/-
  DocAudit.Text.Basic
  ───────────────────
  **TEXT AS A LIST OF CHARACTERS.**

  Every reader and writer of the library works on `Text`, a plain list of
  Unicode characters, so that each of them is a structural recursion.  This
  module holds the vocabulary they share: what a blank is, how text is
  trimmed, cut into lines, words and fields, and how it is measured.

  Two conventions are fixed here once and for all:

      blank  — the characters with the Unicode property White_Space
      line   — ends at a line feed; one carriage return before that line feed
               belongs to the line end, and an empty last line is no line
-/

namespace DocAudit

/-- Text is the list of its characters. -/
abbrev Text := List Char

namespace Text

/-! ## §1. Character classes. -/

/-- The characters with the Unicode property White_Space. -/
def isBlank (c : Char) : Bool :=
  let n := c.toNat
  (9 ≤ n && n ≤ 13) || n == 0x20 || n == 0x85 || n == 0xA0 || n == 0x1680
    || (0x2000 ≤ n && n ≤ 0x200A) || n == 0x2028 || n == 0x2029 || n == 0x202F
    || n == 0x205F || n == 0x3000

/-- A character that may begin a C identifier. -/
def isNameStart (c : Char) : Bool := c.isAlpha || c == '_'

/-- A character that may continue a C identifier. -/
def isNameChar (c : Char) : Bool := c.isAlphanum || c == '_'

/-- A plain C identifier: an ASCII letter or `_`, then letters, digits and `_`. -/
def isIdentifier : Text → Bool
  | [] => false
  | c :: rest => isNameStart c && rest.all isNameChar

/-! ## §2. Trimming. -/

/-- The text without its leading blanks. -/
def trimStart (t : Text) : Text := t.dropWhile isBlank

/-- The text without the characters at its end that satisfy `p`. -/
def dropEndWhile (p : Char → Bool) (t : Text) : Text := (t.reverse.dropWhile p).reverse

/-- The text without its trailing blanks. -/
def trimEnd (t : Text) : Text := dropEndWhile isBlank t

/-- The text without blanks at either end. -/
def trim (t : Text) : Text := trimEnd (trimStart t)

/-- What follows `head`, if the text begins with it. -/
def after? (head t : Text) : Option Text :=
  if head.isPrefixOf t then some (t.drop head.length) else none

/-! ## §3. Cutting. -/

/-- Cut a list at every member that satisfies `p`; those members are dropped.
There is always one piece more than there are cuts. -/
def splitWhere {α : Type} (p : α → Bool) : List α → List (List α)
  | [] => [[]]
  | a :: rest =>
    if p a then [] :: splitWhere p rest
    else
      match splitWhere p rest with
      | [] => [[a]]
      | first :: others => (a :: first) :: others

/-- Cut text at every occurrence of one character. -/
def splitOn (sep : Char) (t : Text) : List Text := splitWhere (· == sep) t

/-- The text before and after the first `sep`, if there is one. -/
def cut? (sep : Char) : Text → Option (Text × Text)
  | [] => none
  | c :: rest =>
    if c = sep then some ([], rest)
    else (cut? sep rest).map fun (before, after) => (c :: before, after)

def lines : Text → List Text
  | [] => []
  | '\n' :: rest => [] :: lines rest
  | '\r' :: '\n' :: rest => [] :: lines rest
  | c :: rest =>
    match lines rest with
    | [] => [[c]]
    | first :: others => (c :: first) :: others

/-- The first word, and everything after it, once leading blanks are gone. -/
def splitWord (t : Text) : Text × Text :=
  let s := trimStart t
  (s.takeWhile (!isBlank ·), s.dropWhile (!isBlank ·))

/-- The maximal blank-free stretches of a text, in order. -/
def words : Text → List Text
  | [] => []
  | c :: rest =>
    if isBlank c then words rest
    else
      match rest with
      | [] => [[c]]
      | d :: _ =>
        if isBlank d then [c] :: words rest
        else
          match words rest with
          | [] => [[c]]
          | first :: others => (c :: first) :: others

/-! ## §4. Putting together. -/

/-- The texts one after another, with `sep` between neighbours. -/
def join (sep : Text) (ts : List Text) : Text := sep.intercalate ts

def spaces (n : Nat) : Text := List.replicate n ' '

/-- A number in decimal digits. -/
def ofNat (n : Nat) : Text := Nat.toDigits 10 n

/-- Numbers that are read must be below this limit: they have at most 64 bits. -/
def numberLimit : Nat := 0x10000000000000000

/-- The text, and a line feed at its end. -/
def line (t : Text) : Text := t ++ ['\n']

/-! ## §5. Searching and measuring. -/

/-- Whether `needle` occurs in the text as a contiguous stretch. -/
def occursIn (needle : Text) : Text → Bool
  | [] => needle.isEmpty
  | c :: rest => needle.isPrefixOf (c :: rest) || occursIn needle rest

/-- The text with the first occurrence of `needle` replaced by `put`. -/
def replaceFirst (needle put : Text) : Text → Text
  | [] => if needle.isEmpty then put else []
  | c :: rest =>
    if needle.isPrefixOf (c :: rest) then put ++ (c :: rest).drop needle.length
    else c :: replaceFirst needle put rest

/-- Whether the text holds nothing but blanks. -/
def isAllBlank (t : Text) : Bool := t.all isBlank

/-- The text with its ASCII capitals made small. -/
def lower (t : Text) : Text := t.map Char.toLower

/-- The UTF-8 encoding of a text. -/
def utf8 (t : Text) : List UInt8 := t.flatMap String.utf8EncodeChar

/-- The number of bytes a text takes in UTF-8. -/
def byteWidth : Text → Nat
  | [] => 0
  | c :: rest => c.utf8Size + byteWidth rest

/-- The number of line feeds in a text. -/
def newlines (t : Text) : Nat := t.count '\n'

/-! ## §6. Ordered sets of names. -/

/-- Append the members of a list that are not yet known, each once, in order of
their first appearance. -/
def addNew (known : List Text) : List Text → List Text
  | [] => known
  | name :: rest => addNew (if name ∈ known then known else known ++ [name]) rest

/-- The members of a list, each once, in order of their first appearance. -/
def distinct (names : List Text) : List Text := addNew [] names

end Text
end DocAudit
