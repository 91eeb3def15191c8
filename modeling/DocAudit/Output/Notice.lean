/-
  DocAudit.Output.Notice
  ──────────────────────
  **MESSAGES BESIDE THE REPORT.**

  A notice is a headline with a sign that shows its level, and, if there are any,
  a line of detail and a line of help:

      ✖ Config: template.width must be at least 4, got 3
      ⚠ Warning: Failed to read file: egg.c
        × stream did not contain valid UTF-8
        help: the file was skipped
-/
import DocAudit.Output.Colour

namespace DocAudit

/-- How grave a notice is. -/
inductive Level where
  /-- A command failed; its heading names the kind of failure. -/
  | failure (heading : Text)
  /-- Something was skipped. -/
  | warning
  /-- A remark on progress. -/
  | info
  deriving DecidableEq, Repr

/-- A message for the user. -/
structure Notice where
  /-- How grave it is. -/
  level : Level
  /-- The headline. -/
  message : Text
  /-- What is behind it. -/
  detail : Option Text := none
  /-- What can be done about it. -/
  help : Option Text := none
  deriving DecidableEq, Repr

namespace Notice

/-- The first line.  Each level has a wording in colour and one without. -/
def headline (colour : Bool) (n : Notice) : Text :=
  match n.level with
  | .failure heading =>
    if colour then
      Style.bold.start ++ Style.red.start ++ "✖ ".toList ++ heading ++ [':'] ++ Style.reset
        ++ [' '] ++ n.message
    else "✖ ".toList ++ heading ++ ": ".toList ++ n.message
  | .warning =>
    if colour then
      Style.bold.start ++ Style.yellow.start ++ "⚠ Warning:".toList ++ Style.reset
        ++ [' '] ++ n.message
    else "⚠ Warning: ".toList ++ n.message
  | .info =>
    if colour then Style.cyan.start ++ "ℹ".toList ++ Style.reset ++ [' '] ++ n.message
    else "ℹ ".toList ++ n.message

def detailLine (colour : Bool) (detail : Text) : Text :=
  if colour then "  ".toList ++ Style.dim.start ++ "× ".toList ++ detail ++ Style.reset
  else "  × ".toList ++ detail

def helpLine (colour : Bool) (help : Text) : Text :=
  if colour then
    "  ".toList ++ Style.cyan.start ++ "help:".toList ++ Style.reset ++ [' '] ++ help
  else "  help: ".toList ++ help

def lines (colour : Bool) (n : Notice) : List Text :=
  headline colour n :: (n.detail.map (detailLine colour)).toList
    ++ (n.help.map (helpLine colour)).toList

/-- The text of a notice, each line ended. -/
def render (colour : Bool) (n : Notice) : Text := (lines colour n).flatMap Text.line

/-- The text of several notices. -/
def renderAll (colour : Bool) (ns : List Notice) : Text := ns.flatMap (render colour)

end Notice
end DocAudit
