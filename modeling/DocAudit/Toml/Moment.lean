/-
  DocAudit.Toml.Moment
  ────────────────────
  **DATES AND TIMES OF DAY.**

  No setting is a date or a time, but such a value may stand where values are
  ignored, and there it must still be one:

      date      2024-02-29               a day that the calendar has
      clock     23:59   23:59:60.5       seconds and their fraction are optional
      moment    2024-02-29T23:59:60Z     a space may stand for the `T`, and an
                2024-02-29 23:59+01:00   offset for the `Z`; either may be missing

  The sixtieth second is the one that is added to a day now and then.
-/
import DocAudit.Text.Basic

namespace DocAudit.Toml

open Text

/-! ## §1. Fields. -/

/-- The number that decimal digits stand for. -/
def decimalValue (ds : Text) : Nat := ds.foldl (fun sum c => sum * 10 + (c.toNat - 0x30)) 0

/-- The number in a field of exactly `width` decimal digits. -/
def field? (width : Nat) (t : Text) : Option Nat :=
  if t.length = width ∧ t.all Char.isDigit then some (decimalValue t) else none

/-- Whether a field of two digits holds a number up to `limit`. -/
def isUpTo (limit : Nat) (t : Text) : Bool := (field? 2 t).any (· ≤ limit)

/-! ## §2. Dates. -/

/-- Whether a year has a 29th of February. -/
def isLeapYear (year : Nat) : Bool := year % 4 == 0 && (year % 100 != 0 || year % 400 == 0)

/-- The number of days of a month; no month, no days. -/
def daysIn (year month : Nat) : Nat :=
  if month = 2 then if isLeapYear year then 29 else 28
  else if month ∈ [4, 6, 9, 11] then 30
  else if 1 ≤ month ∧ month ≤ 12 then 31
  else 0

def isDate (t : Text) : Bool :=
  match splitOn '-' t with
  | [year, month, day] =>
    match field? 4 year, field? 2 month, field? 2 day with
    | some y, some m, some d => decide (1 ≤ d ∧ d ≤ daysIn y m)
    | _, _, _ => false
  | _ => false

/-! ## §3. Times of day. -/

/-- Whether a text is seconds, with or without a fraction. -/
def isSeconds (t : Text) : Bool :=
  match splitOn '.' t with
  | [whole] => isUpTo 60 whole
  | [whole, fraction] => isUpTo 60 whole && !fraction.isEmpty && fraction.all Char.isDigit
  | _ => false

/-- Whether a text is a time of day. -/
def isClock (t : Text) : Bool :=
  match splitOn ':' t with
  | [hour, minute] => isUpTo 23 hour && isUpTo 59 minute
  | [hour, minute, seconds] => isUpTo 23 hour && isUpTo 59 minute && isSeconds seconds
  | _ => false

/-- Whether a text is a distance from universal time. -/
def isOffset : Text → Bool
  | ['Z'] => true
  | ['z'] => true
  | sign :: rest =>
    (sign == '+' || sign == '-')
      && match splitOn ':' rest with
        | [hours, minutes] => isUpTo 23 hours && isUpTo 59 minutes
        | _ => false
  | [] => false

/-- A character of a time of day. -/
def isClockChar (c : Char) : Bool := c.isDigit || c == ':' || c == '.'

/-- Whether a text is a time of day, with or without an offset. -/
def isOffsetClock (t : Text) : Bool :=
  let clock := t.takeWhile isClockChar
  let offset := t.drop clock.length
  isClock clock && (offset.isEmpty || isOffset offset)

/-! ## §4. Moments. -/

/-- The number of characters of a date. -/
def dateLength : Nat := 10

/-- Whether a text is a date, a time of day, or both together. -/
def isMoment (t : Text) : Bool :=
  isClock t
    || (isDate (t.take dateLength)
      && match t.drop dateLength with
        | [] => true
        | c :: rest => (c == 'T' || c == 't' || c == ' ') && isOffsetClock rest)

end DocAudit.Toml
