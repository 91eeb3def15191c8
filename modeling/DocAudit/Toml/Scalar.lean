/-
  DocAudit.Toml.Scalar
  ────────────────────
  **STRINGS AND NUMBERS OF A CONFIGURATION FILE.**

  TOML has four kinds of string: in double quotes with escapes or in single
  quotes without, on one line or, with the quotes tripled, on several.  Numbers,
  truth values and times are written without quotes.  Each reader returns what it
  read and the rest of the text, or `none` if there is nothing it can read.

  Underscores may separate the digits of a number into groups.  A decimal integer
  whose later groups are not decimal, `1_f`, and a mark without digits, `0x`, are
  values, but no numbers.
-/
import DocAudit.Toml.Moment

namespace DocAudit.Toml

open Text

/-! ## §1. Characters. -/

/-- A space or tab. -/
def isSpace (c : Char) : Bool := c == ' ' || c == '\t'

/-- A character that may stand in a comment or string: a tab, or anything that is
no control character. -/
def isPlain (c : Char) : Bool := c == '\t' || (0x20 ≤ c.toNat && c.toNat != 0x7F)

/-- The value of a hexadecimal digit. -/
def hexDigit? (c : Char) : Option Nat :=
  if c.isDigit then some (c.toNat - 0x30)
  else if 'a'.toNat ≤ c.toNat ∧ c.toNat ≤ 'f'.toNat then some (c.toNat - 0x57)
  else if 'A'.toNat ≤ c.toNat ∧ c.toNat ≤ 'F'.toNat then some (c.toNat - 0x37)
  else none

/-- The number that digits of a base stand for; each must be below the base. -/
def digits? (base : Nat) (ds : Text) : Option Nat :=
  ds.foldl (fun sum c => do
    let s ← sum
    let d ← hexDigit? c
    if d < base then some (s * base + d) else none) (some 0)

/-- The character with the given code, if there is one. -/
def charOf? (code : Nat) : Option Char :=
  if code < 0xD800 ∨ (0xDFFF < code ∧ code < 0x110000) then some (Char.ofNat code) else none

/-- A character given by exactly `n` hexadecimal digits. -/
def codePoint? (n : Nat) (t : Text) : Option (Char × Text) :=
  if (t.take n).length = n then
    ((digits? 16 (t.take n)).bind charOf?).map fun c => (c, t.drop n)
  else none

/-- The character that an escape stands for, read after its backslash. -/
def escape? : Text → Option (Char × Text)
  | [] => none
  | c :: rest =>
    if c = 'b' then some ('\x08', rest)
    else if c = 't' then some ('\t', rest)
    else if c = 'n' then some ('\n', rest)
    else if c = 'f' then some ('\x0c', rest)
    else if c = 'r' then some ('\r', rest)
    else if c = 'e' then some ('\x1b', rest)
    else if c = '"' ∨ c = '\\' then some (c, rest)
    else if c = 'x' then codePoint? 2 rest
    else if c = 'u' then codePoint? 4 rest
    else if c = 'U' then codePoint? 8 rest
    else none

theorem length_codePoint?_le {n : Nat} {t rest : Text} {c : Char}
    (h : codePoint? n t = some (c, rest)) : rest.length ≤ t.length := by
  simp only [codePoint?] at h
  split at h
  · obtain ⟨_, _, h⟩ := Option.map_eq_some_iff.1 h
    cases h
    simp
  · cases h

theorem length_escape?_lt {t rest : Text} {c : Char} (h : escape? t = some (c, rest)) :
    rest.length < t.length := by
  cases t with
  | nil => simp [escape?] at h
  | cons a t =>
    simp only [escape?] at h
    simp only [List.length_cons, Nat.lt_succ_iff]
    repeat' split at h
    all_goals first
      | exact length_codePoint?_le h
      | (cases h; simp)
      | cases h

/-! ## §2. Strings on one line. -/

/-- The rest of a string in double quotes. -/
def basicString? : Text → Option (Text × Text)
  | [] => none
  | c :: rest =>
    if c = '"' then some ([], rest)
    else if c = '\\' then
      match _h : escape? rest with
      | none => none
      | some (d, rest) => (basicString? rest).map fun (s, left) => (d :: s, left)
    else if isPlain c then (basicString? rest).map fun (s, left) => (c :: s, left)
    else none
termination_by t => t.length
decreasing_by
  all_goals simp only [List.length_cons]
  · have := length_escape?_lt (by assumption)
    omega
  · omega

/-- The rest of a string in single quotes. -/
def literalString? : Text → Option (Text × Text)
  | [] => none
  | c :: rest =>
    if c = '\'' then some ([], rest)
    else if isPlain c then (literalString? rest).map fun (s, left) => (c :: s, left)
    else none

/-! ## §3. Strings on several lines. -/

/-- The text without the line end it begins with, if it begins with one. -/
def dropLineEnd : Text → Text
  | '\n' :: rest => rest
  | '\r' :: '\n' :: rest => rest
  | t => t

/-- The text without the blanks and line ends in front, as they are skipped after a
backslash at the end of a line. -/
def dropBlankLines : Text → Text
  | '\r' :: '\n' :: rest => dropBlankLines rest
  | c :: rest => if isSpace c || c == '\n' then dropBlankLines rest else c :: rest
  | [] => []

/-- Whether nothing but blanks stands before the end of the line. -/
def blankToLineEnd (t : Text) : Bool :=
  match t.dropWhile isSpace with
  | '\n' :: _ => true
  | '\r' :: '\n' :: _ => true
  | _ => false

/-- A line end inside a string, kept as it is. -/
def lineEnd? : Text → Option (Text × Text)
  | '\n' :: rest => some (['\n'], rest)
  | '\r' :: '\n' :: rest => some (['\r', '\n'], rest)
  | _ => none

/-- The quotes at the beginning of a text, if they close a string on several lines:
three of them, and before those up to two that belong to the string. -/
def closingQuotes? (quote : Char) (t : Text) : Option (Text × Text) :=
  let n := (t.takeWhile (· == quote)).length
  if n < 3 then none
  else some (List.replicate (min (n - 3) 2) quote, t.drop (min n 5))

/-- The rest of a string on several lines, read with at most `fuel` steps, each of
which takes at least one character. -/
def multiline? (quote : Char) (escapes : Bool) : (fuel : Nat) → Text → Option (Text × Text)
  | 0, _ => none
  | _, [] => none
  | fuel + 1, c :: rest =>
    match closingQuotes? quote (c :: rest) with
    | some found => some found
    | none =>
      match lineEnd? (c :: rest) with
      | some (ending, left) =>
        (multiline? quote escapes fuel left).map fun (s, left) => (ending ++ s, left)
      | none =>
        if escapes ∧ c = '\\' then
          -- a backslash before the line end joins the lines
          if blankToLineEnd rest then multiline? quote escapes fuel (dropBlankLines rest)
          else
            (escape? rest).bind fun (d, left) =>
              (multiline? quote escapes fuel left).map fun (s, left) => (d :: s, left)
        else if isPlain c then
          (multiline? quote escapes fuel rest).map fun (s, left) => (c :: s, left)
        else none

/-- A string on several lines, read after its opening quotes. -/
def multilineString? (quote : Char) (escapes : Bool) (t : Text) : Option (Text × Text) :=
  multiline? quote escapes (t.length + 1) (dropLineEnd t)

/-! ## §4. Numbers, truth values and times. -/

/-- Digits in which single underscores may separate groups. -/
def grouped? (t : Text) : Option Text :=
  let groups := splitOn '_' t
  if groups.all fun g => !g.isEmpty then some groups.flatten else none

/-- The sign of a number, if it has one, and the rest of the text. -/
def splitSign : Text → Option Char × Text
  | '+' :: rest => (some '+', rest)
  | '-' :: rest => (some '-', rest)
  | t => (none, t)

/-- The value of a decimal number without its sign: no zero in front of other digits. -/
def decimal? (t : Text) : Option Nat := do
  let ds ← grouped? t
  if ds.head? = some '0' ∧ 1 < ds.length then none else digits? 10 ds

/-- The base that the mark in front of an integer stands for, and the rest of the
text. -/
def marked? : Text → Option (Nat × Text)
  | '0' :: 'x' :: ds => some (16, ds)
  | '0' :: 'o' :: ds => some (8, ds)
  | '0' :: 'b' :: ds => some (2, ds)
  | _ => none

/-- An integer: decimal with or without a sign, or with a mark. -/
def integer? (t : Text) : Option Int :=
  match marked? t with
  | some (base, ds) => ((grouped? ds).bind (digits? base)).map Int.ofNat
  | none =>
    let (sign, ds) := splitSign t
    (decimal? ds).map fun n => if sign = some '-' then -Int.ofNat n else Int.ofNat n

/-- Whether a character exists and is a digit of some base. -/
def isAnyDigit (c : Option Char) : Bool := (c.bind hexDigit?).isSome

/-- Whether groups have the form of digits after an underscore: each begins with a digit
of some base, and ends with one if another follows. -/
def areGroups : List Text → Bool
  | [] => true
  | [g] => isAnyDigit g.head?
  | g :: rest => isAnyDigit g.head? && isAnyDigit g.getLast? && areGroups rest

/-- Whether a text has the form of an integer, though it may be none: a mark without
digits, or a decimal number whose later groups hold digits of another base. -/
def isIntegerForm (t : Text) : Bool :=
  match marked? t with
  | some (_, ds) => ds.isEmpty
  | none =>
    let (_, body) := splitSign t
    let first := body.takeWhile Char.isDigit
    match body.drop first.length with
    | '_' :: later =>
      !first.isEmpty && first.head? != some '0'
        && later.all (fun c => c != '.' && c != 'e' && c != 'E')
        && areGroups (splitOn '_' later)
    | _ => false

/-- Whether a text is decimal digits, in groups or not. -/
def isDigits (t : Text) : Bool := ((grouped? t).bind (digits? 10)).isSome

/-- Whether a text is a number with a fraction, an exponent or both, or one of the
two names for what is no number. -/
def isFloat (t : Text) : Bool :=
  let (_, body) := splitSign t
  if body = "inf".toList ∨ body = "nan".toList then true
  else
    let mantissa := body.takeWhile fun c => c != 'e' && c != 'E'
    let exponent := body.drop mantissa.length
    let whole := mantissa.takeWhile (· != '.')
    let fraction := mantissa.drop whole.length
    (decimal? whole).isSome
      && (fraction.isEmpty || isDigits (fraction.drop 1))
      && (exponent.isEmpty || isDigits (splitSign (exponent.drop 1)).2)
      && !(fraction.isEmpty && exponent.isEmpty)

/-- A character of a value without quotes. -/
def isBareValueChar (c : Char) : Bool :=
  !(isSpace c || c == '\n' || c == '\r' || c == '#' || c == ',' || c == '='
    || c == '[' || c == ']' || c == '\x7b' || c == '\x7d')

/-- Whether a text is a value that no setting can take: a truth value, a number with a
fraction, a date or time, or something that is no more than formed like an integer. -/
def isOther (t : Text) : Bool :=
  t == "true".toList || t == "false".toList || isFloat t || isMoment t || isIntegerForm t

end DocAudit.Toml
