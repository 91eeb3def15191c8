/-
  DocAudit.Comment.Edt
  ────────────────────
  **THE DIALECT OF `edt:` LINES.**

  A block belongs to this dialect when one of its lines begins with `edt:`.  That
  line has three fields, of which the last is the name of the function.
  `Argument:` and `Return:` lines open entries; the first text of an argument may
  begin with its direction:

      edt: * function fry

      Return: int
        The number of eggs.

      Argument: pan
        INOUT:  The pan.

  A plain block comment has no `edt:` line.  It is no record, unless it points
  elsewhere, and a line that lacks its star is no error in it; but an `Argument:` or
  `Return:` line that breaks a rule is one there as well.
-/
import DocAudit.Comment.Block
import DocAudit.Comment.Body
import DocAudit.Comment.Draft
import DocAudit.Comment.Reference

namespace DocAudit.Edt

open Text

/-! ## §1. Lines. -/

/-- How a definition line begins. -/
def definitionMark : Text := "edt:".toList

/-- How an argument line begins. -/
def argumentMark : Text := "Argument:".toList

/-- How a return line begins. -/
def returnMark : Text := "Return:".toList

/-- A body line, told apart by how it begins. -/
inductive Line where
  /-- A definition, with what follows its mark. -/
  | definition (rest : Text)
  /-- An argument, with what follows its mark. -/
  | argument (rest : Text)
  /-- A return value, with what follows its mark. -/
  | result (rest : Text)
  /-- Text. -/
  | text (t : Text)
  deriving DecidableEq, Repr

/-- Tell a body line apart. -/
def Line.ofText (t : Text) : Line :=
  match after? definitionMark t with
  | some rest => .definition rest
  | none =>
    match after? argumentMark t with
    | some rest => .argument rest
    | none =>
      match after? returnMark t with
      | some rest => .result rest
      | none => .text t

/-- The name on a definition line: the last of exactly three fields. -/
def definitionName? (rest : Text) : Option Text :=
  match words rest with
  | [_, _, name] => some name
  | _ => none

/-- Whether a line, its stars and blanks in front left out, is a definition. -/
def mentionsDefinition (line : Text) : Bool :=
  definitionMark.isPrefixOf (line.dropWhile fun c => c == '*' || isBlank c)

/-! ## §2. Entries. -/

/-- The parameter on an argument line: a name, or a type and a name. -/
def argument? (rest : Text) : Option Param :=
  match words rest with
  | [name] => some (Param.named name)
  | [typename, name] => some (Param.typed typename name)
  | _ => none

/-- The return value on a return line, whose rest is the type. -/
def result (rest : Text) : Param :=
  let t := trim rest
  if t = [] then Param.named returnName else { Param.named returnName with typename := some t }

/-- Whether a label is written in capitals only. -/
def isLabel (label : Text) : Bool := label.all Char.isUpper

/-- The direction at the beginning of a line such as `IN: The pan.`, and the rest. -/
def labelled? (t : Text) : Option (Direction × Text) :=
  match cut? ':' t with
  | some (label, rest) =>
    match Direction.ofTag? label with
    | some d => if isLabel label then some (d, rest) else none
    | none => none
  | none => none

/-- Add a text line to an argument.  The first one may state the direction. -/
def addText (p : Param) (t : Text) : Param :=
  if p.comment.isNone && p.direction.isNone then
    match labelled? t with
    | some (d, rest) => { p with direction := some d }.addComment rest
    | none => p.addComment t
  else p.addComment t

/-! ## §3. Reading. -/

/-- Read one body line.  Text before the definition is dropped. -/
def step (d : Draft) (l : BodyLine) : Except CommentError Draft :=
  match Line.ofText l.text with
  | .definition rest =>
    if d.name.isSome then .error ⟨l.line, .secondDefinition⟩
    else
      match definitionName? rest with
      | some name => .ok { d with name := some name }
      | none => .error ⟨l.line, .definitionFields⟩
  | .argument rest =>
    match argument? rest with
    | some p => .ok (d.addParam p)
    | none => .error ⟨l.line, .argumentNames⟩
  | .result rest =>
    if d.returns.isSome then .error ⟨l.line, .secondReturnEntry⟩
    else .ok (d.setReturns (result rest))
  | .text t =>
    if d.cursor = .description ∧ d.name.isNone then .ok d else .ok (d.addText addText t)

/-- Read body lines one after another. -/
def steps (d : Draft) : List BodyLine → Except CommentError Draft
  | [] => .ok d
  | l :: rest =>
    match step d l with
    | .ok next => steps next rest
    | .error e => .error e

/-- The first name on a definition line. -/
def firstName? (ls : List BodyLine) : Option Text :=
  ls.findSome? fun l =>
    match Line.ofText l.text with
    | .definition rest => definitionName? rest
    | _ => none

/-- The record of a comment, or `none` for a plain block comment. -/
def parse (c : Comment) : Except CommentError (Option DocRecord) :=
  match c.body Dialect.edt.opening with
  | .error e => if c.lines.any mentionsDefinition then .error e else .ok none
  | .ok ls =>
    if Reference.isReference (Reference.extraPhrases .edt) (ls.map (·.text)) then
      .ok (some (DocRecord.pointer (firstName? ls)))
    else
      match steps {} ls with
      | .error e => .error e
      | .ok d => .ok (if d.name.isSome then some d.toRecord else none)

/-! ## §4. Writing. -/

/-- The width against which direction labels are aligned. -/
def labelWidth : Nat := argumentMark.length - 1

/-- A direction label with its indentation and the spaces after it. -/
def labelText (d : Direction) : Text :=
  "  ".toList ++ d.label ++ [':'] ++ spaces (labelWidth - (d.label.length + 3))

/-- The lines of a parameter, after an empty line. -/
def paramText (p : Param) : Text :=
  ['\n'] ++ argumentMark ++ [' '] ++ line p.name
    ++ (match p.direction with
      | some d => labelText d
      | none => [])
    ++ "  ".toList ++ line (Block.commentOr p.comment)

/-- The lines of the return value. -/
def returnText (p : Param) : Text :=
  returnMark ++ [' '] ++ line (p.typename.getD []) ++ "  ".toList
    ++ line (Block.commentOr p.comment)

/-- The free text of a record. -/
def text (r : DocRecord) : Text :=
  definitionMark ++ " * function ".toList ++ r.name.getD [] ++ "\n\n".toList
    ++ Block.descriptionOr r.description ++ "\n\n".toList
    ++ (match r.returns with
      | some p => returnText p
      | none => [])
    ++ r.params.flatMap paramText

/-- The block of a record. -/
def render (r : DocRecord) (o : WrapOptions) : Text :=
  Block.render (text r) Dialect.edt.opening o

end DocAudit.Edt
