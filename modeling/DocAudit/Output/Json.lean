/-
  DocAudit.Output.Json
  ────────────────────
  **JSON FOR MACHINES TO READ.**

  The values a report is made of, written with one member on each line and two
  spaces of indentation for each level.  A string escapes the quotation mark, the
  backslash and the control characters, five of them by a letter; everything else
  stands for itself.
-/
import DocAudit.Text.Basic

namespace DocAudit

/-- A JSON value. -/
inductive Json where
  /-- A natural number. -/
  | number (n : Nat)
  /-- A string. -/
  | string (t : Text)
  /-- An array. -/
  | array (items : List Json)
  /-- An object, its members in order. -/
  | object (members : List (Text × Json))

namespace Json

/-! ## §1. Strings. -/

/-- The two hexadecimal digits of a number below 256. -/
def hexByte (n : Nat) : Text := [Nat.digitChar (n / 16), Nat.digitChar (n % 16)]

/-- A character inside a string. -/
def escape (c : Char) : Text :=
  if c = '"' then ['\\', '"']
  else if c = '\\' then ['\\', '\\']
  else if c = '\x08' then ['\\', 'b']
  else if c = '\x0c' then ['\\', 'f']
  else if c = '\n' then ['\\', 'n']
  else if c = '\r' then ['\\', 'r']
  else if c = '\t' then ['\\', 't']
  else if c.toNat < 0x20 then "\\u00".toList ++ hexByte c.toNat
  else [c]

/-- A string in quotation marks. -/
def quote (t : Text) : Text := '"' :: t.flatMap escape ++ ['"']

/-! ## §2. Values. -/

/-- A new line at the given level. -/
def newLine (level : Nat) : Text := '\n' :: Text.spaces (2 * level)

/-- Items between brackets, one on each line; no items leave no line. -/
def bracketed (opening closing : Char) (level : Nat) : List Text → Text
  | [] => [opening, closing]
  | items =>
    opening :: Text.join [','] (items.map (newLine (level + 1) ++ ·)) ++ newLine level
      ++ [closing]

mutual

/-- A value whose first line stands at the given level. -/
def render (level : Nat) : Json → Text
  | number n => Text.ofNat n
  | string t => quote t
  | array items => bracketed '[' ']' level (renderItems (level + 1) items)
  | object members => bracketed '\x7b' '\x7d' level (renderMembers (level + 1) members)

/-- The items of an array. -/
def renderItems (level : Nat) : List Json → List Text
  | [] => []
  | item :: rest => render level item :: renderItems level rest

/-- The members of an object. -/
def renderMembers (level : Nat) : List (Text × Json) → List Text
  | [] => []
  | (key, value) :: rest =>
    (quote key ++ ": ".toList ++ render level value) :: renderMembers level rest

end

/-- The text of a value. -/
def pretty (j : Json) : Text := render 0 j

end Json
end DocAudit
