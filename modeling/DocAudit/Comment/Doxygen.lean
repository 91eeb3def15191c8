/-
  DocAudit.Comment.Doxygen
  ────────────────────────
  **THE DIALECT OF `@param` AND `@return`.**

  A body line whose first word begins with `@param` or `\param` opens the entry
  of a parameter, one whose first word begins with `@return` or `\return` the
  entry of the return value, which may be opened once.  A direction may stand in
  square brackets after the marker:

      @param[in,out] pan The pan.
      @return The number of eggs.

  `render` writes such a block from a record; it is what templates are made of.
-/
import DocAudit.Comment.Block
import DocAudit.Comment.Body
import DocAudit.Comment.Draft
import DocAudit.Comment.Reference

namespace DocAudit.Doxygen

open Text

/-! ## §1. Markers. -/

/-- How a parameter marker begins. -/
def paramMarkers : List Text := ["@param", "\\param"].map String.toList

/-- How a return marker begins. -/
def returnMarkers : List Text := ["@return", "\\return"].map String.toList

/-- What a body line introduces. -/
def marker (t : Text) : Marker :=
  let word := (splitWord t).1
  if paramMarkers.any (·.isPrefixOf word) then .parameter
  else if returnMarkers.any (·.isPrefixOf word) then .result
  else .text

/-! ## §2. Reading. -/

/-- The direction in the brackets of a marker, if there is one. -/
def markerDirection? (word : Text) : Option Direction :=
  match cut? '[' word with
  | some (_, tag) => Direction.ofTag? (dropEndWhile (· == ']') tag)
  | none => none

/-- The parameter that a marker line introduces; `none` if it has no name.  All
text after the name is comment. -/
def param? (t : Text) : Option Param :=
  let (word, rest) := splitWord t
  let (name, comment) := splitWord rest
  if name = [] then none
  else some ({ name, direction := markerDirection? word : Param }.addComment comment)

/-- The return value that a marker line introduces. -/
def result (t : Text) : Param := (Param.named returnName).addComment (splitWord t).2

/-- Read one body line. -/
def step (d : Draft) (l : BodyLine) : Except CommentError Draft :=
  match marker l.text with
  | .parameter =>
    match param? l.text with
    | some p => .ok (d.addParam p)
    | none => .error ⟨l.line, .paramWithoutName⟩
  | .result =>
    if d.returns.isSome then .error ⟨l.line, .secondReturn⟩
    else .ok (d.setReturns (result l.text))
  | .text => .ok (d.addText Param.addComment l.text)

/-- Read body lines one after another. -/
def steps (d : Draft) : List BodyLine → Except CommentError Draft
  | [] => .ok d
  | l :: rest =>
    match step d l with
    | .ok next => steps next rest
    | .error e => .error e

def parse (c : Comment) : Except CommentError DocRecord :=
  match c.body Dialect.doxygen.opening with
  | .error e => .error e
  | .ok ls =>
    if Reference.isReference (Reference.extraPhrases .doxygen) (ls.map (·.text)) then
      .ok (DocRecord.pointer none)
    else
      match steps {} ls with
      | .ok d => .ok d.toRecord
      | .error e => .error e

/-! ## §3. Writing. -/

/-- The indentation of the line below a marker. -/
def valueIndent : Text := spaces 13

/-- The lines of a parameter, after an empty line. -/
def paramText (p : Param) : Text :=
  "\n@param[".toList ++ (p.direction.getD .input).tag ++ "] ".toList ++ p.name
    ++ (match p.typename with
      | some t => " (".toList ++ t ++ [')']
      | none => [])
    ++ ['\n'] ++ valueIndent ++ line (Block.commentOr p.comment)

/-- The lines of the return value, after an empty line. -/
def returnText (p : Param) : Text :=
  "\n@return ".toList ++ p.typename.getD [] ++ ['\n'] ++ valueIndent
    ++ line (Block.commentOr p.comment)

/-- The free text of a record. -/
def text (r : DocRecord) : Text :=
  line (r.name.getD []) ++ ['\n'] ++ line (Block.descriptionOr r.description)
    ++ r.params.flatMap paramText
    ++ (match r.returns with
      | some p => returnText p
      | none => [])

/-- The block of a record. -/
def render (r : DocRecord) (o : WrapOptions) : Text :=
  Block.render (text r) Dialect.doxygen.opening o

end DocAudit.Doxygen
