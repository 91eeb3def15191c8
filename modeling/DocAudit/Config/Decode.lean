/-
  DocAudit.Config.Decode
  ──────────────────────
  **SETTINGS FROM A CONFIGURATION FILE.**

  A configuration file is a table of three sections, each a table of its settings.
  Unknown keys are refused, missing ones have their defaults.  A section may also
  be written as an array of its settings in their order, of which the last ones
  may be missing, and a dialect as a table whose only key is its name.
-/
import DocAudit.Config.Basic
import DocAudit.Toml.Document

namespace DocAudit.Config

open Toml

/-! ## §1. Values. -/

/-- A string. -/
def text? : Node → Option Text
  | .string t => some t
  | _ => none

/-- The members of an array. -/
def items? : Node → Option (List Node)
  | .array items => some items
  | .tables items => some (items.map fun es => .table .header es)
  | _ => none

/-- The entries of a table. -/
def entries? : Node → Option Entries
  | .table _ es => some es
  | .inline es => some es
  | _ => none

/-- An array of strings. -/
def texts? (n : Node) : Option (List Text) := (items? n).bind fun items => items.mapM text?

/-- A natural number of at most 64 bits. -/
def natural? : Node → Option Nat
  | .integer n => if 0 ≤ n ∧ n.toNat < Text.numberLimit then some n.toNat else none
  | _ => none

/-- Whether a node holds nothing. -/
def isEmptyNode (n : Node) : Bool :=
  match entries? n, items? n with
  | some es, _ => es.isEmpty
  | none, some items => items.isEmpty
  | none, none => false

/-- A dialect: its word, or a table with the word as its only key and nothing
under it. -/
def dialect? (n : Node) : Option Dialect :=
  match n with
  | .string t => Dialect.ofWord? t
  | _ =>
    match entries? n with
    | some [(key, value)] => if isEmptyNode value then Dialect.ofWord? key else none
    | _ => none

/-! ## §2. Sections. -/

/-- The values of the named fields, in order, for a table without other keys. -/
def tableFields? (names : List Text) (es : Entries) : Option (List (Option Node)) :=
  if es.all fun e => names.contains e.1 then some (names.map es.get?) else none

/-- The values of the named fields of a section. -/
def fields? (names : List Text) (n : Node) : Option (List (Option Node)) :=
  match entries? n, items? n with
  | some es, _ => tableFields? names es
  | none, some items => some ((List.range names.length).map fun i => items[i]?)
  | none, none => none

/-- The value of a field, or its default if it is missing. -/
def fieldOr {α : Type} (read : Node → Option α) (default : α) : Option Node → Option α
  | some n => read n
  | none => some default

/-- The settings of directory walks. -/
def scanner? (n : Node) : Option ScannerConfig := do
  match ← fields? ["extensions".toList, "exclude".toList] n with
  | [extensions, exclude] =>
    let base : ScannerConfig := {}
    some ⟨← fieldOr texts? base.extensions extensions, ← fieldOr texts? base.exclude exclude⟩
  | _ => none

/-- The settings of reports. -/
def check? (n : Node) : Option CheckConfig := do
  match ← fields? ["ignore_functions".toList, "ignore_file".toList] n with
  | [functions, file] =>
    let base : CheckConfig := {}
    some ⟨← fieldOr texts? base.ignoreFunctions functions,
      ← fieldOr (fun n => (text? n).map some) base.ignoreFile file⟩
  | _ => none

/-- The settings of templates. -/
def template? (n : Node) : Option TemplateConfig := do
  match ← fields? ["dialect".toList, "width".toList, "indent".toList] n with
  | [dialect, width, indent] =>
    let base : TemplateConfig := {}
    some ⟨← fieldOr dialect? base.dialect dialect, ← fieldOr natural? base.width width,
      ← fieldOr natural? base.indent indent⟩
  | _ => none

/-- The settings of a document. -/
def ofEntries? (es : Entries) : Option Config := do
  match ← tableFields? ["scanner".toList, "check".toList, "template".toList] es with
  | [scanner, check, template] =>
    some ⟨← fieldOr scanner? {} scanner, ← fieldOr check? {} check,
      ← fieldOr template? {} template⟩
  | _ => none

/-! ## §3. Files. -/

/-- The settings in the text of a configuration file. -/
def ofText (t : Text) : Except Error Config :=
  match Toml.parse t with
  | .error line => .error (.toml (.malformed line))
  | .ok es =>
    match ofEntries? es with
    | none => .error (.toml .unfit)
    | some c => c.validate

end DocAudit.Config
