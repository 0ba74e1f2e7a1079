/-!
# Refusals of JSON documents

A document is refused where reading it from left to right first fails.  It is no JSON
from there on, it ends too early, or it is JSON that does not fit.  The first two
have a wording, which says what is wrong and gives the line and the column.
-/

namespace Transit.Json

/-- What is unfinished when a document ends too early. -/
inductive Part where
  | value
  | list
  | object
  | string
deriving DecidableEq

/-- What is wrong where a document stops being JSON. -/
inductive Flaw where
  /-- No value begins like this. -/
  | value
  /-- A word is none of those that stand for a value. -/
  | word
  | number
  | tooLarge
  | escape
  /-- An escape gives half of a character, and the other half does not follow. -/
  | halfCharacter
  /-- After the first half of a character there is no escape. -/
  | missingHalf
  | control
  | key
  | colon
  | listSeparator
  | objectSeparator
  /-- A comma is followed by the end of its list or object. -/
  | lastComma
  /-- Something follows where nothing may. -/
  | leftOver
deriving DecidableEq

/-- How a document is refused. -/
inductive Refusal where
  /-- The document is not JSON.  The last of its bytes but `left` is at fault. -/
  | malformed (flaw : Flaw) (left : Nat)
  /-- The document ends too early. -/
  | truncated (part : Part)
  /-- The document is JSON but does not fit, perhaps with a reason. -/
  | unfit (reason? : Option String)
deriving DecidableEq

/-- The wording of an early end. -/
def Part.message (part : Part) : String :=
  "EOF while parsing " ++
    match part with
    | .value => "a value"
    | .list => "a list"
    | .object => "an object"
    | .string => "a string"

/-- The wording of a flaw. -/
def Flaw.message : Flaw → String
  | .value => "expected value"
  | .word => "expected ident"
  | .number => "invalid number"
  | .tooLarge => "number out of range"
  | .escape => "invalid escape"
  | .halfCharacter => "lone leading surrogate in hex escape"
  | .missingHalf => "unexpected end of hex escape"
  | .control => "control character (\\u0000-\\u001F) found while parsing a string"
  | .key => "key must be a string"
  | .colon => "expected \x60:\x60"
  | .listSeparator => "expected \x60,\x60 or \x60]\x60"
  | .objectSeparator => "expected \x60,\x60 or \x60\x7d\x60"
  | .lastComma => "trailing comma"
  | .leftOver => "trailing characters"

/-- A place in a text.  Lines are counted from one and end with their line feed;
columns count the bytes of the line up to the place. -/
structure Place where
  line : Nat
  column : Nat
deriving DecidableEq

namespace Place

/-- The place of the last byte of some. -/
def afterBytes (bytes : List UInt8) : Place :=
  ⟨1 + bytes.count 10, (bytes.reverse.takeWhile (· ≠ 10)).length⟩

/-- The place of the last of the bytes of a text but `left`. -/
def before (text : String) (left : Nat) : Place :=
  afterBytes (text.toUTF8.toList.take (text.utf8ByteSize - left))

/-- The form for messages. -/
def text (place : Place) : String := s!"line {place.line} column {place.column}"

/-- A byte moves the place on by a column, a line feed to the beginning of the next
line. -/
theorem afterBytes_concat (bytes : List UInt8) (byte : UInt8) :
    afterBytes (bytes ++ [byte]) =
      if byte = 10 then ⟨(afterBytes bytes).line + 1, 0⟩
      else ⟨(afterBytes bytes).line, (afterBytes bytes).column + 1⟩ := by
  by_cases feed : byte = 10
  · simp [afterBytes, feed, Nat.add_assoc]
  · simp [afterBytes, feed]

end Place

/-- The wording of a refusal of a document that is not JSON or ends too early. -/
def Refusal.message? (refusal : Refusal) (document : String) : Option String :=
  match refusal with
  | .malformed flaw left => some s!"{flaw.message} at {(Place.before document left).text}"
  | .truncated part => some s!"{part.message} at {(Place.before document 0).text}"
  | .unfit _ => none

end Transit.Json
