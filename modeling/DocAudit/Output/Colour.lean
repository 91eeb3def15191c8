/-
  DocAudit.Output.Colour
  ──────────────────────
  **COLOURED TEXT.**

  Colour is a matter of control sequences put around a text.  Every printer takes
  a flag that says whether it may use them.  Some lines are the same text, painted or
  not (`Style.paint`); others are worded twice, once for each case.
-/
import DocAudit.Text.Basic

namespace DocAudit

/-- The ways in which text can stand out. -/
inductive Style where
  /-- For what is wrong. -/
  | red
  /-- For what is right. -/
  | green
  /-- For what is doubtful. -/
  | yellow
  /-- For places and remarks. -/
  | cyan
  /-- For headings. -/
  | bold
  /-- For details. -/
  | dim
  deriving DecidableEq, Repr

namespace Style

/-- The control sequence with the given parameter. -/
def control (parameter : Text) : Text := ['\x1b', '['] ++ parameter ++ ['m']

/-- The sequence that begins a style. -/
def start : Style → Text
  | red => control "31".toList
  | green => control "32".toList
  | yellow => control "33".toList
  | cyan => control "36".toList
  | bold => control "1".toList
  | dim => control "2".toList

/-- The sequence that ends every style. -/
def reset : Text := control "0".toList

/-- A text in a style, if colour is allowed. -/
def paint (colour : Bool) (styles : List Style) (t : Text) : Text :=
  if colour then styles.flatMap start ++ t ++ reset else t

end Style

/-- When to use colour. -/
inductive ColourMode where
  /-- When the output goes to a terminal that takes it. -/
  | auto
  /-- In any case. -/
  | always
  /-- In no case. -/
  | never
  deriving DecidableEq, Repr

namespace ColourMode

/-- Whether to use colour on an output that is, or is not, a terminal. -/
def allows (terminal : Bool) : ColourMode → Bool
  | auto => terminal
  | always => true
  | never => false

/-- The mode that a word stands for. -/
def ofWord? (w : Text) : Option ColourMode :=
  if w = "auto".toList then some auto
  else if w = "always".toList then some always
  else if w = "never".toList then some never
  else none

end ColourMode
end DocAudit
