/-
  DocAudit.Audit.Finding
  ──────────────────────
  **WHERE A DECLARATION AND ITS DOCUMENTATION DISAGREE.**

  Parameters are compared by position when there are equally many on both sides,
  and by name otherwise.  A direction or a type counts only where both sides
  state it, and types are compared without their blanks.  A function that does
  not return `void` needs a return entry.
-/
import DocAudit.Audit.Binding

namespace DocAudit

/-! ## §1. Findings. -/

/-- A disagreement between a declaration and its documentation. -/
inductive Fault where
  /-- There is no documentation. -/
  | undocumented
  /-- A declared parameter is not documented. -/
  | missingParam (name : Text)
  /-- A documented parameter is not declared. -/
  | extraParam (name : Text)
  /-- A declared parameter and the one documented in its place differ. -/
  | differentParam (name : Text)
  /-- The return value is not documented. -/
  | missingReturn
  deriving DecidableEq, Repr

namespace Fault

/-- A stable identifier for machines to read. -/
def code : Fault → Text
  | undocumented => "missing-documentation".toList
  | missingParam _ => "missing-parameter".toList
  | extraParam _ => "extra-parameter".toList
  | differentParam _ => "mismatched-parameter".toList
  | missingReturn => "missing-return".toList

/-- The parameter concerned, if it is one. -/
def parameter? : Fault → Option Text
  | missingParam name => some name
  | extraParam name => some name
  | differentParam name => some name
  | undocumented => none
  | missingReturn => none

/-- The wording for people to read. -/
def message : Fault → Text
  | undocumented => "Is missing documentation!".toList
  | missingParam name => "Argument missing from docstring: ".toList ++ name
  | extraParam name => "Extra argument in docstring: ".toList ++ name
  | differentParam name => "Argument incorrect in docstring: ".toList ++ name
  | missingReturn => "Missing return documentation in non-void function".toList

end Fault

/-- A disagreement and the declaration it was found on. -/
structure Finding where
  /-- What is wrong. -/
  fault : Fault
  /-- The declaration. -/
  signature : Signature
  deriving DecidableEq, Repr

namespace Finding

/-- The place of a finding: `<file>:<line>`. -/
def location (f : Finding) : Text := f.signature.file ++ [':'] ++ Text.ofNat f.signature.line

/-- The line of a finding in a report. -/
def message (f : Finding) : Text :=
  f.location ++ " in function ".toList ++ f.signature.name ++ " - ".toList ++ f.fault.message

end Finding

/-! ## §2. Comparing. -/

namespace Param

/-- A type spelling without its blanks. -/
def bareType (t : Text) : Text := t.filter (!Text.isBlank ·)

/-- Whether two statements agree, where silence agrees with everything. -/
def compatible {α : Type} [DecidableEq α] : Option α → Option α → Bool
  | some a, some b => a == b
  | _, _ => true

/-- Whether a declared and a documented parameter agree.  A parameter declared
without a name agrees with every name. -/
def agrees (declared documented : Param) : Bool :=
  (declared.name.isEmpty || declared.name == documented.name)
    && compatible declared.direction documented.direction
    && compatible (declared.typename.map bareType) (documented.typename.map bareType)

end Param

namespace Fault

/-- The faults of parameter lists of equal length. -/
def byPosition (declared documented : List Param) : List Fault :=
  ((declared.zip documented).filter fun (a, b) => !a.agrees b).map fun (a, _) =>
    differentParam a.name

/-- The faults of parameter lists of different length: names that only the
declaration has, then names that only the documentation has. -/
def byName (declared documented : List Param) : List Fault :=
  let here := Text.distinct ((declared.map (·.name)).filter (!·.isEmpty))
  let there := Text.distinct (documented.map (·.name))
  (here.filter (!there.contains ·)).map missingParam
    ++ (there.filter (!here.contains ·)).map extraParam

/-- The faults of the parameters. -/
def ofParams (declared documented : List Param) : List Fault :=
  if declared.length = documented.length then byPosition declared documented
  else byName declared documented

/-- The faults of the return value. -/
def ofReturn (s : Signature) (r : DocRecord) : List Fault :=
  if s.returnsVoid || r.returns.isSome then [] else [missingReturn]

/-- Everything on which a declaration and its record disagree. -/
def validate (s : Signature) : Option DocRecord → List Fault
  | none => [undocumented]
  | some r => if r.elsewhere then [] else ofParams s.params r.params ++ ofReturn s r

end Fault

namespace Finding

def ofBinding (b : Binding) : List Finding :=
  (Fault.validate b.signature b.record).map fun fault => ⟨fault, b.signature⟩

/-- The findings of all bindings, in order. -/
def ofBindings (bs : List Binding) : List Finding := bs.flatMap ofBinding

end Finding
end DocAudit
