import Transit.Text.Blank
import Transit.Text.Numeral

/-!
# Scanning a text from the left

A scanner takes something off the front of a text or refuses.  Dates and instants
are read by scanners put one after the other; reading a whole text means that the
last scanner leaves nothing behind.
-/

namespace Transit.Text

/-- A step that takes a value off the front of a text, or refuses. -/
abbrev Scan (Value : Type) := StateT (List Char) Option Value

namespace Scan

variable {Value : Type}

/-- Read a whole text with nothing left over. -/
def whole? (scan : Scan Value) (text : String) : Option Value :=
  match scan.run text.toList with
  | some (value, []) => some value
  | _ => none

/-- Skip blank characters. -/
def blanks : Scan Unit := modify trimStart

/-- Skip characters of one kind. -/
def skipWhile (kind : Char → Bool) : Scan Unit := modify (·.dropWhile kind)

/-- The next character, without taking it. -/
def peek? : Scan (Option Char) := return (← get).head?

/-- Take the next character. -/
def next : Scan Char := do
  match ← get with
  | [] => failure
  | first :: rest => set rest; return first

/-- Take the next character, which must be of one kind. -/
def nextOf (kind : Char → Bool) : Scan Char := do
  let character ← next
  if kind character then return character else failure

/-- Take one given character. -/
def literal (character : Char) : Scan Unit :=
  discard (nextOf (· == character))

/-- Take a number of one to `limit` digits, giving also how many there were. -/
def number (limit : Nat) : Scan (Nat × Nat) := do
  let (digits, rest) := spanDigits limit (← get)
  if digits.isEmpty then failure
  set rest
  return (numeralValue digits, digits.length)

end Scan

end Transit.Text
