/-
  DocAudit.Toml.Node
  ──────────────────
  **TABLES AND HOW THEY MAY BE EXTENDED.**

  A TOML document builds one table out of statements that may come in any order,
  and forbids to define anything twice.  Whether a table may be entered again
  depends on where it came from:

      implied   named on the way to another one, `a` in `[a.b]`
      header    defined by a header of its own, `[a]`
      dotted    made by a dotted key, `a` in `a.b = 1`
      inline    written between braces, and closed for good

  A header may define an implied table and pass through any but an inline one; a
  dotted key may only extend what dotted keys made.
-/
import DocAudit.Text.Basic

namespace DocAudit.Toml

/-- Where a table came from. -/
inductive Origin where
  /-- It was named on the way to another table. -/
  | implied
  /-- It has a header. -/
  | header
  /-- A dotted key made it. -/
  | dotted
  deriving DecidableEq, Repr

/-- A value of a document. -/
inductive Node where
  /-- A string. -/
  | string (t : Text)
  /-- An integer. -/
  | integer (n : Int)
  /-- A truth value, a number with a fraction, or a time. -/
  | other
  /-- An array written as a value. -/
  | array (items : List Node)
  /-- A table written as a value. -/
  | inline (entries : List (Text × Node))
  /-- A table that statements define. -/
  | table (origin : Origin) (entries : List (Text × Node))
  /-- The tables of an array that headers define. -/
  | tables (items : List (List (Text × Node)))

/-- The entries of a table, in order. -/
abbrev Entries := List (Text × Node)

namespace Entries

/-- The value of a key. -/
def get? (es : Entries) (key : Text) : Option Node :=
  (es.find? fun e => e.1 == key).map (·.2)

/-- Give a key a value, in its old place or at the end. -/
def set (es : Entries) (key : Text) (value : Node) : Entries :=
  match es with
  | [] => [(key, value)]
  | e :: rest => if e.1 == key then (key, value) :: rest else e :: set rest key value

/-- Give a new key a value. -/
def insertNew (es : Entries) (key : Text) (value : Node) : Option Entries :=
  match get? es key with
  | some _ => none
  | none => some (set es key value)

/-- Change the last member of a list. -/
def changeLast {α : Type} (f : α → Option α) : List α → Option (List α)
  | [] => none
  | [a] => (f a).map fun b => [b]
  | a :: b :: rest => (changeLast f (b :: rest)).map (a :: ·)

/-- Change the table at the end of a header's path.  Tables that do not exist are
implied, and an array of tables is entered at its last one. -/
def changeAt (f : Entries → Option Entries) : List Text → Entries → Option Entries
  | [], es => f es
  | key :: path, es =>
    match get? es key with
    | none => (changeAt f path []).map fun sub => set es key (.table .implied sub)
    | some (.table origin sub) =>
      (changeAt f path sub).map fun sub => set es key (.table origin sub)
    | some (.tables items) =>
      (changeLast (changeAt f path) items).map fun items => set es key (.tables items)
    | some _ => none

/-- Insert a value under a dotted key. -/
def insertDotted (value : Node) : List Text → Entries → Option Entries
  | [], _ => none
  | [key], es => insertNew es key value
  | key :: next :: path, es =>
    match get? es key with
    | none =>
      (insertDotted value (next :: path) []).map fun sub => set es key (.table .dotted sub)
    | some (.table .dotted sub) =>
      (insertDotted value (next :: path) sub).map fun sub => set es key (.table .dotted sub)
    | some _ => none

/-- Define the table of a header, which may be implied but not defined before. -/
def defineTable (key : Text) (es : Entries) : Option Entries :=
  match get? es key with
  | none => some (set es key (.table .header []))
  | some (.table .implied sub) => some (set es key (.table .header sub))
  | some _ => none

/-- Begin the next table of an array. -/
def defineNext (key : Text) (es : Entries) : Option Entries :=
  match get? es key with
  | none => some (set es key (.tables [[]]))
  | some (.tables items) => some (set es key (.tables (items ++ [[]])))
  | some _ => none

end Entries
end DocAudit.Toml
