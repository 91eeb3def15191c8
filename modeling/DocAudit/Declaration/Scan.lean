/-
  DocAudit.Declaration.Scan
  ─────────────────────────
  **FROM TOKENS TO DECLARATIONS.**

  A skeleton is a run of statements that end at `;` or at a brace.  A statement
  declares a function when it reads

      specifiers and type   name   (   parameters   )   …

  with nothing but words and stars before the name.  Names used as types that
  are neither keywords nor defined by a `typedef` of the same text are reported
  as errors; the declarations themselves never depend on that
  (`scanStatement` uses the known types for its notes only).
-/
import DocAudit.Declaration.Basic
import DocAudit.Declaration.Spelling

namespace DocAudit.Declaration

open Token

/-! ## §1. Statements. -/

def endsStatement (t : Token) : Bool :=
  t.isMark ';' || t.isMark '\x7b' || t.isMark '\x7d'

/-- The non-empty statements of a run of tokens. -/
def statements (ts : List Token) : List (List Token) :=
  (Text.splitWhere endsStatement ts).filter (!·.isEmpty)

/-! ## §2. Names of defined types. -/

/-- A pointer in brackets, as in `int (*name)(int)`: the tokens around its name. -/
structure PointerName where
  /-- What stands before the opening bracket. -/
  lead : List Token
  /-- The opening bracket and the star. -/
  opening : List Token
  /-- The name. -/
  name : Token
  /-- What stands after the name. -/
  rest : List Token

/-- The first place where a name follows an opening bracket and a star. -/
def pointerName? : List Token → Option PointerName
  | a :: b :: c :: rest =>
    if a.isMark '(' && b.isMark '*' && c.isName then some ⟨[], [a, b], c, rest⟩
    else (pointerName? (b :: c :: rest)).map fun p => { p with lead := a :: p.lead }
  | _ => none

/-- Whether a statement is a type definition. -/
def isTypedef (s : List Token) : Bool :=
  match s with
  | t :: _ => t.text == typedefWord
  | [] => false

/-- The name that a type definition defines: that of a pointer in brackets if
there is one, and else the last name. -/
def typedefName? (s : List Token) : Option Text :=
  match pointerName? s with
  | some p => some p.name.text
  | none => (s.reverse.find? isName).map Token.text

/-- The names of the types defined by a run of statements. -/
def typedefNames (ss : List (List Token)) : List Text :=
  (ss.filter isTypedef).filterMap typedefName?

/-! ## §3. Unknown types. -/

/-- The note about a name that is used as a type and is none. -/
def unknownType (t : Token) : Note :=
  ⟨.error, t.line, "unknown type name '".toList ++ t.text ++ ['\'']⟩

/-- The notes on a run of type tokens: one for each name that is not a known
type.  A name after `struct`, `union` or `enum` is a tag and needs no note. -/
def unknownTypes (known : List Text) (afterTag : Bool) : List Token → List Note
  | [] => []
  | t :: rest =>
    let others := unknownTypes known t.isTagWord rest
    if t.isName && !known.contains t.text && !afterTag then unknownType t :: others else others

/-! ## §4. Parameters. -/

/-- The tokens up to the bracket that closes the one already open, `depth` more
being open. -/
def upToClosing : Nat → List Token → Option (List Token)
  | _, [] => none
  | depth, t :: rest =>
    if t.isMark '(' then (upToClosing (depth + 1) rest).map (t :: ·)
    else if t.isMark ')' then
      match depth with
      | 0 => some []
      | d + 1 => (upToClosing d rest).map (t :: ·)
    else (upToClosing depth rest).map (t :: ·)

/-- The bracket depth after a token.  A closing bracket too many is ignored. -/
def bracketDepth (depth : Nat) (t : Token) : Nat :=
  if t.isMark '(' || t.isMark '[' then depth + 1
  else if t.isMark ')' || t.isMark ']' then depth - 1
  else depth

/-- Cut a run of tokens at the commas outside all brackets. -/
def splitCommas (depth : Nat) : List Token → List (List Token)
  | [] => [[]]
  | t :: rest =>
    if depth = 0 ∧ t.isMark ',' then [] :: splitCommas depth rest
    else
      match splitCommas (bracketDepth depth t) rest with
      | [] => [[t]]
      | first :: others => (t :: first) :: others

/-- What precedes the nearest `[`, for tokens listed from last to first. -/
def beforeBracket? : List Token → Option (List Token)
  | [] => none
  | t :: rest => if t.isMark '[' then some rest else beforeBracket? rest

theorem length_beforeBracket?_lt {ts rest : List Token} (h : beforeBracket? ts = some rest) :
    rest.length < ts.length := by
  induction ts with
  | nil => simp [beforeBracket?] at h
  | cons t ts ih =>
    simp only [beforeBracket?] at h
    split at h
    · cases h; simp
    · have := ih h; simp only [List.length_cons]; omega

/-- Tokens listed from last to first, without the array bounds they begin with. -/
def dropBounds : List Token → List Token
  | [] => []
  | t :: rest =>
    if t.isMark ']' then
      -- a bound may hold brackets; the nearest `[` counts, and what is left is looked at again
      match _h : beforeBracket? rest with
      | some before => dropBounds before
      | none => t :: rest
    else t :: rest
termination_by ts => ts.length
decreasing_by
  have := length_beforeBracket?_lt (by assumption)
  simp only [List.length_cons]
  omega

/-- Whether the last of these tokens is the name of a parameter: it is a name, it
does not stand alone, and it is not a tag. -/
def endsInName (ts : List Token) : Bool :=
  match ts.reverse with
  | last :: before :: _ => last.isName && !before.isTagWord
  | _ => false

/-- One parameter: the notes on its type, the spelling of the type and the name,
which is empty if there is none. -/
def scanParam (known : List Text) (group : List Token) : List Note × (Text × Text) :=
  match pointerName? group with
  | some p =>
    (unknownTypes known false p.lead, (spell (p.lead ++ p.opening ++ p.rest), p.name.text))
  | none =>
    let core := (dropBounds group.reverse).reverse
    let bounds := group.drop core.length
    let named := endsInName core
    let type := if named then core.dropLast else core
    let name := if named then (core.getLast?.map Token.text).getD [] else []
    (unknownTypes known false type, (spell (type ++ bounds), name))

/-- Whether a parameter list is `()` or `(void)`. -/
def isEmptyList (groups : List (List Token)) : Bool :=
  match groups with
  | [[]] => true
  | [[t]] => t.text == "void".toList
  | _ => false

/-- Whether a group between commas is a parameter: it is not empty and not the
ellipsis. -/
def isParam : List Token → Bool
  | [] => false
  | [t] => !t.isEllipsis
  | _ => true

/-- The parameters between the brackets of a declaration. -/
def scanParams (known : List Text) (inside : List Token) : List (List Note × (Text × Text)) :=
  let groups := splitCommas 0 inside
  if isEmptyList groups then [] else (groups.filter isParam).map (scanParam known)

/-! ## §5. Declarations. -/

/-- A statement that declares a function, taken apart. -/
structure Head where
  /-- The tokens of the return type, specifiers left out. -/
  type : List Token
  /-- The token of the name. -/
  name : Token
  /-- The tokens between the brackets. -/
  inside : List Token

/-- Whether a token may stand before the name of a function. -/
def isTypeToken (t : Token) : Bool := t.kind == .word || t.isMark '*'

/-- Take a statement apart, if it declares a function: at least two tokens stand
before the first bracket, the last of them is the name and the others are words
and stars, and the bracket is closed. -/
def head? (s : List Token) : Option Head :=
  match s.span (!·.isMark '(') with
  | (_, []) => none
  | (before, _ :: rest) =>
    match before.reverse with
    | name :: t :: ts =>
      let type := (t :: ts).reverse
      if name.isName && type.all isTypeToken then
        (upToClosing 0 rest).map fun inside =>
          { type := type.filter (!·.isSpecifier), name, inside }
      else none
    | _ => none

/-- The spelling of a return type; a function without one returns `int`. -/
def returnSpelling (type : List Token) : Text :=
  if type.isEmpty then "int".toList else spell type

/-- What a declaring statement contributes to the outline. -/
def Head.outline (known : List Text) (h : Head) : Outline :=
  let params := scanParams known h.inside
  { declarations :=
      [{ name := h.name.text
         line := h.name.line
         returnType := returnSpelling h.type
         params := params.map (·.2) }]
    notes := unknownTypes known false h.type ++ params.flatMap (·.1) }

/-- The note about a statement that is a single unknown name. -/
def bareName (t : Token) : Note :=
  ⟨.warning, t.line, "type specifier missing, defaults to 'int'".toList⟩

/-- Whether a statement is a single name that is no known type. -/
def bareName? (known : List Text) : List Token → Option Token
  | [t] => if t.isName && !known.contains t.text then some t else none
  | _ => none

/-- What one statement contributes to the outline. -/
def scanStatement (known : List Text) (s : List Token) : Outline :=
  if isTypedef s then {}
  else
    match bareName? known s with
    | some t => { notes := [bareName t] }
    | none =>
      match head? s with
      | some h => h.outline known
      | none => {}

/-- The outline of a run of statements. -/
def scanStatements (known : List Text) (ss : List (List Token)) : Outline :=
  { declarations := ss.flatMap fun s => (scanStatement known s).declarations
    notes := ss.flatMap fun s => (scanStatement known s).notes }

/-- The outline of a skeleton text. -/
def scan (t : Text) : Outline :=
  let ss := statements (Token.ofText t)
  scanStatements (typedefNames ss) ss

end DocAudit.Declaration
