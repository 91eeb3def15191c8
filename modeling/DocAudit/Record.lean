/-
  DocAudit.Record
  ───────────────
  **DECLARATIONS AND THEIR DOCUMENTATION, AS DATA.**

  A `Signature` is what a C file declares, a `DocRecord` is what a comment
  says about it.  Both list their parameters as `Param` values, and the return
  value is one more `Param` under a reserved name, so that the comparison of
  the two sides is a comparison of like with like.
-/
import DocAudit.Text.Basic

namespace DocAudit

/-! ## §1. Directions. -/

/-- Which way the data of a parameter flows. -/
inductive Direction where
  /-- The function reads the parameter. -/
  | input
  /-- The function writes through the parameter. -/
  | output
  /-- The function does both. -/
  | both
  deriving DecidableEq, Repr

namespace Direction

/-- Read a direction tag such as `in`, `OUT` or `in,out`. -/
def ofTag? (tag : Text) : Option Direction :=
  let t := (Text.trim tag).map Char.toLower
  if t = "in".toList then some input
  else if t = "out".toList then some output
  else if t = "inout".toList ∨ t = "in,out".toList ∨ t = "in, out".toList
      ∨ t = "in/out".toList then some both
  else none

/-- The label of an EDT argument block. -/
def label : Direction → Text
  | input => "IN".toList
  | output => "OUT".toList
  | both => "INOUT".toList

/-- The tag of a Doxygen parameter marker. -/
def tag : Direction → Text
  | input => "in".toList
  | output => "out".toList
  | both => "in,out".toList

end Direction

/-! ## §2. Parameters. -/

/-- The name under which a return value is listed. -/
def returnName : Text := "<return>".toList

/-- What a template calls a parameter that was declared without a name. -/
def unnamedParam : Text := "<name>".toList

/-- One parameter, or the return value, of a function.  A declaration always
knows the type; documentation only sometimes states type and direction. -/
structure Param where
  /-- The spelling of the type, if it is stated. -/
  typename : Option Text := none
  /-- The name; empty when a prototype leaves it out. -/
  name : Text := []
  /-- The free text about the parameter. -/
  comment : Option Text := none
  /-- The direction, if it is stated. -/
  direction : Option Direction := none
  deriving DecidableEq, Repr

namespace Param

/-- A parameter of which only the name is known. -/
def named (name : Text) : Param := { name }

/-- A parameter with a type and a name. -/
def typed (typename name : Text) : Param := { typename := some typename, name }

/-- A return value of the given type. -/
def returning (typename : Text) : Param := typed typename returnName

/-- Whether the entry stands for a return value. -/
def isReturn (p : Param) : Bool := p.name == returnName

/-- The parameter with this comment in place of its own. -/
def withComment (p : Param) (comment : Text) : Param := { p with comment := some comment }

/-- The parameter with this direction in place of its own. -/
def withDirection (p : Param) (d : Direction) : Param := { p with direction := some d }

/-- Add a line to the comment: its trimmed text, one space after what is
already there.  Blank lines add nothing. -/
def addComment (p : Param) (line : Text) : Param :=
  let t := Text.trim line
  if t = [] then p
  else
    match p.comment with
    | some c => { p with comment := some (c ++ ' ' :: t) }
    | none => { p with comment := some t }

end Param

/-! ## §3. Signatures. -/

/-- A function as it is declared in a file. -/
structure Signature where
  /-- The function's name. -/
  name : Text
  /-- The path of the file, as it was given. -/
  file : Text
  /-- The line of the name, counted from one. -/
  line : Nat
  /-- The return value. -/
  returns : Param
  /-- The parameters, in order. -/
  params : List Param
  deriving DecidableEq, Repr

/-- A function of return type `void` has nothing to document about its result. -/
def Signature.returnsVoid (s : Signature) : Bool :=
  match s.returns.typename with
  | some t => Text.trim t == "void".toList
  | none => false

/-! ## §4. Documentation records. -/

/-- What a documentation comment says. -/
structure DocRecord where
  /-- The function it names, if its dialect names one. -/
  name : Option Text := none
  /-- The text before the entries. -/
  description : Text := []
  /-- The entry of the return value. -/
  returns : Option Param := none
  /-- The entries of the parameters, in order. -/
  params : List Param := []
  /-- The comment only says that the documentation stands elsewhere; such a
  record agrees with every declaration. -/
  elsewhere : Bool := false
  deriving DecidableEq, Repr

namespace DocRecord

/-- The record of a comment that points elsewhere. -/
def pointer (name : Option Text) : DocRecord := { name, elsewhere := true }

/-- The entry that a template makes of a declared parameter: it needs a name,
and its direction is `in` unless one is known. -/
def templateParam (p : Param) : Param :=
  { p with
    name := if p.name = [] then unnamedParam else p.name
    direction := some (p.direction.getD .input) }

/-- The record a template starts from: one entry for each parameter, and one for
the return value unless it is `void`. -/
def ofSignature (s : Signature) : DocRecord :=
  { name := some s.name
    returns := if s.returnsVoid then none else some s.returns
    params := s.params.map templateParam }

end DocRecord
end DocAudit
