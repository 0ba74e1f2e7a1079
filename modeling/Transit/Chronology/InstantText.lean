import Transit.Chronology.Instant
import Transit.Chronology.DateText

/-!
# Instants in writing

An instant is written in universal time, as a date, a time of day with three, six or
nine digits of a second's fraction where it has one, and the mark of universal time.
It is read from a date, a time of day and an offset from universal time, which is
subtracted.
-/

namespace Transit.Instant

open Text

/-- A second's fraction with as few groups of three digits as it needs. -/
def fractionText (nanosecond : Nat) : String :=
  if nanosecond = 0 then ""
  else if nanosecond % 1000000 = 0 then "." ++ padded 3 (nanosecond / 1000000)
  else if nanosecond % 1000 = 0 then "." ++ padded 6 (nanosecond / 1000)
  else "." ++ padded 9 nanosecond

/-- The time of day in universal time; a leap second is second 60 of its minute. -/
def clockText (instant : Instant) : String :=
  let second := instant.secondOfDayAt 0
  let leap := instant.nanosecond / 1000000000
  let fraction := fractionText (instant.nanosecond % 1000000000)
  s!"{padded 2 (second / 3600)}:{padded 2 (second / 60 % 60)}:{padded 2 (second % 60 + leap)}{fraction}"

/-- The form for messages: `2024-03-15 07:00:00 UTC`. -/
def text (instant : Instant) : String :=
  s!"{(instant.dateAt 0).text} {instant.clockText} UTC"

/-- The compact form: `2024-03-15T07:00:00Z`. -/
def compactText (instant : Instant) : String :=
  s!"{(instant.dateAt 0).text}T{instant.clockText}Z"

/-- The fraction of a second, as nanoseconds: a point and at least one digit, of
which the tenth and later ones are ignored. -/
def scanFraction : Scan Nat := do
  match ← Scan.peek? with
  | some '.' =>
      Scan.literal '.'
      let (value, digits) ← Scan.number 9
      Scan.skipWhile Char.isDigit
      return value * Nat.pow 10 (9 - digits)
  | _ => return 0

/-- A time of day as its second and nanosecond.  Second 60 is a leap second. -/
def scanClock : Scan (Nat × Nat) := do
  let hour ← Date.scanShort
  Date.scanMark ':'
  let minute ← Date.scanShort
  Date.scanMark ':'
  let second ← Date.scanShort
  let fraction ← scanFraction
  if hour ≤ 23 ∧ minute ≤ 59 ∧ second ≤ 60 then
    let start := hour * 3600 + minute * 60
    if second = 60 then return (start + 59, 1000000000 + fraction)
    else return (start + second, fraction)
  else
    failure

/-- Exactly two digits. -/
def scanPair : Scan Nat := do
  let tens ← Scan.nextOf Char.isDigit
  let ones ← Scan.nextOf Char.isDigit
  return numeralValue [tens, ones]

/-- A signed offset from universal time in seconds, less than a day: hours, colons or
blanks in any number, minutes. -/
def scanSignedOffset : Scan Int := do
  let sign ← Scan.next
  let direction : Int ←
    if sign = '+' then pure 1
    else if sign = '-' ∨ sign = '\u2212' then pure (-1)
    else failure
  let hours ← scanPair
  Scan.skipWhile fun character => character == ':' || isBlank character
  let minutes ← scanPair
  if hours ≤ 23 ∧ minutes ≤ 59 then
    return direction * (hours * 3600 + minutes * 60)
  else
    failure

/-- An offset from universal time in seconds: a letter `Z`, the name of universal
time in letters of either case, or a signed offset. -/
def scanOffset : Scan Int := do
  Scan.blanks
  let characters ← get
  if (characters.take 3).map Char.toUpper = ['U', 'T', 'C'] then
    set (characters.drop 3)
    return 0
  else
    match characters with
    | 'Z' :: rest | 'z' :: rest => set rest; return 0
    | _ => scanSignedOffset

/-- A date, one of `T`, `t` and a space, a time of day and an offset. -/
def scan : Scan Instant := do
  let date ← Date.scan
  discard (Scan.nextOf fun character => character == 'T' || character == 't' || character == ' ')
  let (second, nanosecond) ← scanClock
  let offset ← scanOffset
  let instant : Instant := ⟨date.dayNumber * 86400 + second - offset, nanosecond⟩
  if instant.InRange then return instant else failure

/-- Read an instant that fills the whole text, blanks at the end aside. -/
def ofText? (text : String) : Option Instant :=
  Scan.whole? (do let instant ← scan; Scan.blanks; return instant) text

end Transit.Instant
