/-
  DocAudit.Comment.Wrap
  ─────────────────────
  **BREAKING LINES.**

  A line that is too long is broken at the last end of a word that fits; a word
  that does not fit at all is cut.  The pieces after the first are indented once:
  as far as the line itself, plus the extra indent, but never so far that no
  character would fit.  The blanks at a break are dropped.

  Widths and indents are machine words, and so is the sum of the indentation: where it
  is too large for a word (`Overflows`), what is left of it is its remainder.

  A piece after the first is `pad` spaces and a body, and every break lies behind
  those spaces (`pad_lt_breakAt`), so the bodies get shorter.
-/
import DocAudit.Text.Basic

namespace DocAudit

/-- How text is laid out in a block comment. -/
structure WrapOptions where
  /-- The greatest length of a finished line. -/
  width : Nat := 80
  /-- The extra indent of continued lines. -/
  indent : Nat := 4
  deriving DecidableEq, Repr

namespace Wrap

open Text

/-! ## §1. Where to break. -/

/-- Whether a word ends before position `i`: a blank stands there, and none
before it. -/
def endsWord (t : Text) (i : Nat) : Bool :=
  match t[i - 1]?, t[i]? with
  | some a, some b => !isBlank a && isBlank b
  | _, _ => false

/-- The length of the piece that is broken off: up to the last end of a word
within the width, or the full width. -/
def breakAt (width : Nat) (t : Text) : Nat :=
  ((List.range' 1 width).reverse.find? (endsWord t)).getD width

theorem endsWord_spaces_append {pad i : Nat} {body : Text} (hi : 0 < i)
    (h : endsWord (spaces pad ++ body) i = true) : pad < i := by
  by_cases hlt : pad < i
  · exact hlt
  · have hsp : (spaces pad ++ body)[i - 1]? = some ' ' := by
      have hin : i - 1 < pad := by omega
      rw [List.getElem?_append_left (by simpa [spaces] using hin)]
      simp [spaces, hin]
    simp only [endsWord, hsp] at h
    split at h
    · next a b ha _ =>
      cases ha
      simp [isBlank] at h
    · exact absurd h (by simp)

/-- A break lies behind the indentation. -/
theorem pad_lt_breakAt {width pad : Nat} (body : Text) (hpad : pad < width) :
    pad < breakAt width (spaces pad ++ body) := by
  unfold breakAt
  cases hf : (List.range' 1 width).reverse.find? (endsWord (spaces pad ++ body)) with
  | none => simpa using hpad
  | some i =>
    have hmem := List.mem_of_find?_eq_some hf
    have hi : 0 < i := by
      simp only [List.mem_reverse, List.mem_range'_1] at hmem
      omega
    simpa using endsWord_spaces_append hi (List.find?_some hf)

theorem length_trimStart_le (t : Text) : (trimStart t).length ≤ t.length := by
  unfold trimStart
  induction t with
  | nil => simp
  | cons c t ih =>
    simp only [List.dropWhile_cons]
    split
    · simp only [List.length_cons]; omega
    · simp

/-! ## §2. The pieces. -/

/-- The pieces of a continued line with this body, `pad` spaces before each. -/
def continued (width pad : Nat) (hpad : pad < width) (body : Text) : List Text :=
  let t := spaces pad ++ body
  if _hlen : t.length ≤ width then [t]
  else
    let cut := breakAt width t
    let rest := trimStart (t.drop cut)
    -- blanks at the end of a line make no piece
    if rest = [] then [t.take cut] else t.take cut :: continued width pad hpad rest
termination_by body.length
decreasing_by
  have hlong : ¬(spaces pad ++ body).length ≤ width := by assumption
  have hcut := pad_lt_breakAt body hpad
  have htrim := length_trimStart_le
    ((spaces pad ++ body).drop (breakAt width (spaces pad ++ body)))
  simp only [List.length_drop, List.length_append, spaces, List.length_replicate] at *
  omega

/-- How many numbers there are in a machine word of 64 bits. -/
def wordSize : Nat := 18446744073709551616

/-- The indentation of the pieces after the first.  The sum is one of machine words. -/
def padding (width indent : Nat) (indented : Bool) (line : Text) : Nat :=
  let leading := (line.takeWhile isBlank).length
  min (if indented then leading else (leading + indent) % wordSize) (width - 1)

/-- The sum of the indentation is too large for a machine word. -/
def Overflows (indent : Nat) (indented : Bool) (line : Text) : Prop :=
  indented = false ∧ wordSize ≤ (line.takeWhile isBlank).length + indent

instance (indent : Nat) (indented : Bool) (line : Text) :
    Decidable (Overflows indent indented line) := inferInstanceAs (Decidable (_ ∧ _))

/-- Any other sum of the indentation is exact. -/
theorem padding_eq {indent : Nat} {indented : Bool} {line : Text}
    (h : ¬Overflows indent indented line) (width : Nat) :
    padding width indent indented line
      = min ((line.takeWhile isBlank).length + if indented then 0 else indent) (width - 1) := by
  unfold padding
  cases indented with
  | true => rfl
  | false =>
    have hlt : (line.takeWhile isBlank).length + indent < wordSize :=
      Nat.lt_of_not_le fun hle => h ⟨rfl, hle⟩
    simp only [Bool.false_eq_true, if_false, Nat.mod_eq_of_lt hlt]

/-- Where the sum is too large, the indentation is smaller, never larger. -/
theorem padding_le (width indent : Nat) (indented : Bool) (line : Text) :
    padding width indent indented line
      ≤ min ((line.takeWhile isBlank).length + if indented then 0 else indent) (width - 1) := by
  unfold padding
  cases indented with
  | true => exact Nat.le_refl _
  | false =>
    have hrem := Nat.mod_le ((line.takeWhile isBlank).length + indent) wordSize
    simp only [Bool.false_eq_true, if_false]
    omega

/-- The pieces of a line, each at most `width` long, where a width of zero counts
as one.  A line that is already a continuation gets no extra indent. -/
def wrapLine (line : Text) (width indent : Nat) (indented : Bool) : List Text :=
  let w := max width 1
  if line.length ≤ w then [line]
  else
    let cut := breakAt w line
    let rest := trimStart (line.drop cut)
    if rest = [] then [line.take cut]
    else
      line.take cut
        :: continued w (padding w indent indented line) (by simp only [padding, w]; omega) rest

end Wrap
end DocAudit
