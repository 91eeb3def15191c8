/-
  DocAudit.Toml.Document
  ──────────────────────
  **READING A CONFIGURATION FILE.**

  A document is a list of statements, one on a line: a key and its value, the
  header of a table `[a.b]`, or the header of the next table of an array
  `[[a.b]]`.  Reading yields the table of the whole document, or the line of the
  first statement that cannot be read or that defines something twice.
-/
import DocAudit.Toml.Node
import DocAudit.Toml.Scalar

namespace DocAudit.Toml

open Text

/-! ## §1. Between the words. -/

/-- Skip blanks, line ends and comments.  The flag says that a comment is open. -/
def skipGap (inComment : Bool) : Text → Option Text
  | [] => some []
  | '\r' :: '\n' :: rest => skipGap false rest
  | c :: rest =>
    if c = '\n' then skipGap false rest
    else if inComment then if isPlain c then skipGap true rest else none
    else if isSpace c then skipGap false rest
    else if c = '#' then skipGap true rest
    else some (c :: rest)

/-- Skip blanks on a line. -/
def skipSpaces (t : Text) : Text := t.dropWhile isSpace

/-- Skip to the next line: only blanks and a comment may stand before it. -/
def endStatement? (t : Text) : Option Text :=
  let t := skipSpaces t
  let t :=
    match t with
    | '#' :: rest => rest.dropWhile isPlain
    | _ => t
  match t with
  | [] => some []
  | '\n' :: rest => some rest
  | '\r' :: '\n' :: rest => some rest
  | _ => none

/-! ## §2. Keys. -/

/-- A character of a key without quotes. -/
def isBareKeyChar (c : Char) : Bool := c.isAlphanum || c == '_' || c == '-'

/-- A part of a key. -/
def simpleKey? (t : Text) : Option (Text × Text) :=
  match t with
  | '"' :: rest => basicString? rest
  | '\'' :: rest => literalString? rest
  | _ =>
    let key := t.takeWhile isBareKeyChar
    if key = [] then none else some (key, t.drop key.length)

/-- A key of one part or more with points between them, of at most `limit` parts. -/
def keyUpTo? : (limit : Nat) → Text → Option (List Text × Text)
  | 0, _ => none
  | limit + 1, t => do
    let (part, rest) ← simpleKey? t
    match skipSpaces rest with
    | '.' :: rest =>
      let (parts, rest) ← keyUpTo? limit (skipSpaces rest)
      some (part :: parts, rest)
    | rest => some ([part], rest)

/-- The number of parts that a key may have, and of brackets and braces that may be
open at a time. -/
def nestingLimit : Nat := 80

def key? (t : Text) : Option (List Text × Text) := keyUpTo? nestingLimit t

/-! ## §3. Values. -/

/-- The word at the beginning of a text, together with the next one if a date and a
time of day make one value. -/
def bareValue (t : Text) : Text :=
  let word := t.takeWhile isBareValueChar
  match t.drop word.length with
  | ' ' :: rest =>
    let both := word ++ ' ' :: rest.takeWhile isBareValueChar
    if isMoment both then both else word
  | _ => word

/-- A value without quotes or brackets. -/
def scalar? (t : Text) : Option (Node × Text) :=
  let word := bareValue t
  let rest := t.drop word.length
  match integer? word with
  | some n => some (.integer n, rest)
  | none => if isOther word then some (.other, rest) else none

/-- A string, on one line or on several. -/
def string? (t : Text) : Option (Text × Text) :=
  match t with
  | '"' :: '"' :: '"' :: rest => multilineString? '"' true rest
  | '"' :: rest => basicString? rest
  | '\'' :: '\'' :: '\'' :: rest => multilineString? '\'' false rest
  | '\'' :: rest => literalString? rest
  | _ => none

mutual

/-- A value, read in at most `fuel` nested steps, in which `levels` more brackets and
braces may be opened. -/
def valueWithin? : (fuel levels : Nat) → Text → Option (Node × Text)
  | 0, _, _ => none
  | fuel + 1, levels, t =>
    match t, levels with
    | '[' :: rest, levels + 1 =>
      (items? fuel levels rest).map fun (items, left) => (.array items, left)
    | '\x7b' :: rest, levels + 1 =>
      (members? fuel levels [] rest).map fun (es, left) => (.inline es, left)
    | t, _ =>
      match string? t with
      | some (s, left) => some (.string s, left)
      | none => scalar? t

/-- The items of an array after its bracket or after a comma. -/
def items? : (fuel levels : Nat) → Text → Option (List Node × Text)
  | 0, _, _ => none
  | fuel + 1, levels, t => do
    match ← skipGap false t with
    | ']' :: rest => some ([], rest)
    | t =>
      let (item, rest) ← valueWithin? fuel levels t
      match ← skipGap false rest with
      | ']' :: rest => some ([item], rest)
      | ',' :: rest =>
        let (items, rest) ← items? fuel levels rest
        some (item :: items, rest)
      | _ => none

/-- The members of an inline table after its brace or after a comma, added to
those already read. -/
def members? : (fuel levels : Nat) → Entries → Text → Option (Entries × Text)
  | 0, _, _, _ => none
  | fuel + 1, levels, es, t => do
    match ← skipGap false t with
    | '\x7d' :: rest => some (es, rest)
    | t =>
      let (key, rest) ← key? t
      let rest ← after? ['='] (← skipGap false rest)
      let (value, rest) ← valueWithin? fuel levels (← skipGap false rest)
      let es ← es.insertDotted value key
      match ← skipGap false rest with
      | '\x7d' :: rest => some (es, rest)
      | ',' :: rest => members? fuel levels es rest
      | _ => none

end

def value? (t : Text) : Option (Node × Text) := valueWithin? (t.length + 1) nestingLimit t

/-! ## §4. Statements. -/

/-- What has been read of a document. -/
structure Draft where
  /-- The table of the document. -/
  root : Entries := []
  /-- The path of the last header. -/
  header : List Text := []

/-- The path of a header up to its closing brackets. -/
def headerPath? (closing : Text) (t : Text) : Option (List Text × Text) := do
  let (path, rest) ← key? (skipSpaces t)
  let rest ← after? closing (skipSpaces rest)
  some (path, rest)

/-- Read a header and define its table. -/
def readHeader? (define : Text → Entries → Option Entries) (closing : Text) (d : Draft)
    (t : Text) : Option (Draft × Text) := do
  let (path, rest) ← headerPath? closing t
  let last ← path.getLast?
  let root ← d.root.changeAt (define last) path.dropLast
  some (⟨root, path⟩, rest)

/-- Read a key and its value into the table of the last header. -/
def readKeyValue? (d : Draft) (t : Text) : Option (Draft × Text) := do
  let (key, rest) ← key? t
  let rest ← after? ['='] (skipSpaces rest)
  let (value, rest) ← value? (skipSpaces rest)
  let root ← d.root.changeAt (Entries.insertDotted value key) d.header
  some ({ d with root }, rest)

/-- Read one statement and go on to the next line. -/
def statement? (d : Draft) (t : Text) : Option (Draft × Text) := do
  let (d, rest) ←
    match t with
    | '[' :: '[' :: rest => readHeader? Entries.defineNext "]]".toList d rest
    | '[' :: rest => readHeader? Entries.defineTable [']'] d rest
    | _ => readKeyValue? d t
  let rest ← endStatement? rest
  some (d, rest)

/-- Read at most `fuel` statements.  An error is the number of characters left
where it was met. -/
def statements : (fuel : Nat) → Draft → Text → Except Nat Entries
  | 0, _, t => .error t.length
  | fuel + 1, d, t =>
    match skipGap false t with
    | none => .error t.length
    | some [] => .ok d.root
    | some t =>
      match statement? d t with
      | none => .error t.length
      | some (d, rest) => statements fuel d rest

/-- Read a document.  An error is the line of the statement at fault.  A byte order
mark at the beginning is skipped. -/
def parse (t : Text) : Except Nat Entries :=
  let t := (after? ['\ufeff'] t).getD t
  match statements (t.length + 1) {} t with
  | .ok es => .ok es
  | .error left => .error (1 + newlines (t.take (t.length - left)))

end DocAudit.Toml
