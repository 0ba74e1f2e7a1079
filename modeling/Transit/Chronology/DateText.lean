import Transit.Chronology.Date
import Transit.Text.Scan

/-!
# Dates in writing

A date is written as year, month and day joined by hyphens, the year with at least
four digits and with its sign when it lies outside 0 to 9999.  It is read back from
that form and from looser ones: blanks may stand before each number, before each
hyphen and at the end, month and day may have one digit, and a year without a sign
has at most four.
-/

namespace Transit.Date

open Text

/-- The date as `YYYY-MM-DD`. -/
def text (date : Date) : String :=
  let civil := date.civil
  let year :=
    if 0 ≤ civil.year ∧ civil.year ≤ 9999 then padded 4 civil.year.toNat
    else (if civil.year < 0 then "-" else "+") ++ padded 4 civil.year.natAbs
  s!"{year}-{padded 2 civil.month}-{padded 2 civil.day}"

/-- A year: blanks, then up to four digits, or a sign and any number of digits. -/
def scanYear : Scan Int := do
  Scan.blanks
  let remaining := (← get).length
  match ← Scan.peek? with
  | some '-' =>
      Scan.literal '-'
      return -((← Scan.number remaining).1 : Int)
  | some '+' =>
      Scan.literal '+'
      return ((← Scan.number remaining).1 : Int)
  | _ => return ((← Scan.number 4).1 : Int)

/-- A number of one or two digits after optional blanks. -/
def scanShort : Scan Nat := do
  Scan.blanks
  return (← Scan.number 2).1

/-- A mark after optional blanks. -/
def scanMark (mark : Char) : Scan Unit := do
  Scan.blanks
  Scan.literal mark

/-- Year, month and day of an existing date. -/
def scan : Scan Date := do
  let year ← scanYear
  scanMark '-'
  let month ← scanShort
  scanMark '-'
  let day ← scanShort
  match ofCivil? year month day with
  | some date => return date
  | none => failure

/-- Read a date that fills the whole text, blanks at the end aside. -/
def ofText? (text : String) : Option Date :=
  Scan.whole? (do let date ← scan; Scan.blanks; return date) text

end Transit.Date
