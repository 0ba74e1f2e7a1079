import Transit.Json.Numeral
import Transit.Json.Refusal

/-!
# Reading JSON documents

A reader takes one value of a known shape off the front of a document.  Documents
are read from left to right in one pass, and the first problem on the way decides
how the document is refused: it is no JSON, it ends too early, or it is JSON that
does not fit.  So a value of the wrong shape is refused before a later mistake is
seen, and a mistake within a value before its shape matters.

Values that nobody asks for are skipped.  Skipping checks the form of a value only:
numbers may be too large, and escapes may stand for half a character.
-/

namespace Transit.Json

/-- A step that takes a value off the front of a document. -/
abbrev Reader (Value : Type) := StateT (List Char) (Except Refusal) Value

namespace Reader

variable {Value : Type}

/-- The size of the rest of the document in bytes. -/
def left : Reader Nat := return (String.ofList (← get)).utf8ByteSize

/-- Refuse the next byte, which must be there. -/
def refuseNext (flaw : Flaw) : Reader Value := do
  throw (.malformed flaw ((← left) - 1))

/-- Refuse the last byte taken. -/
def refuseLast (flaw : Flaw) : Reader Value := do
  throw (.malformed flaw (← left))

/-- White space between the parts of a document. -/
def isSpace (character : Char) : Bool :=
  character == ' ' || character == '\n' || character == '\t' || character == '\r'

/-- The next character after white space, which is dropped; the character stays. -/
def mark? : Reader (Option Char) := do
  let rest := (← get).dropWhile isSpace
  set rest
  return rest.head?

/-- The next character, which stays and must be there to go on with a part. -/
def peek (part : Part) : Reader Char := do
  match ← get with
  | [] => throw (.truncated part)
  | character :: _ => return character

/-- The next character after white space, where a part must go on. -/
def markIn (part : Part) : Reader Char := do
  discard mark?
  peek part

/-- The next character after white space, where a value must follow. -/
def mark : Reader Char := markIn .value

/-- Drop the next character. -/
def advance : Reader Unit := modify List.tail

/-- Take the rest of a word letter by letter. -/
def word : List Char → Reader Unit
  | [] => return ()
  | letter :: letters => do
      if (← peek .value) ≠ letter then refuseNext .word
      advance
      word letters

/-- Take all digits that follow. -/
def digits : Reader (List Char) := do
  let rest ← get
  set (rest.dropWhile Char.isDigit)
  return rest.takeWhile Char.isDigit

/-- Take one digit and all that follow.  `ending` refuses a document that ends
instead. -/
def someDigits (ending : Refusal) : Reader (List Char) := do
  match ← get with
  | [] => throw ending
  | first :: _ => if first.isDigit then digits else refuseNext .number

/-- The digits before the point: a single zero, or digits that do not begin with it. -/
def wholeDigits (ending : Refusal) : Reader (List Char) := do
  match ← get with
  | '0' :: rest =>
      set rest
      if rest.head?.any Char.isDigit then refuseNext .number else return ['0']
  | _ => someDigits ending

/-- A point and digits, if there is a point. -/
def fractionDigits (ending : Refusal) : Reader (List Char) := do
  match ← get with
  | '.' :: rest => set rest; someDigits ending
  | _ => return []

/-- The mark of an exponent, a sign perhaps, and digits, if there is such a mark. -/
def exponent (ending : Refusal) : Reader (Option (Bool × List Char)) := do
  match ← get with
  | 'e' :: rest | 'E' :: rest =>
      let isNegative := rest.head? = some '-'
      set (if isNegative ∨ rest.head? = some '+' then rest.tail else rest)
      return some (isNegative, ← someDigits ending)
  | _ => return none

/-- A number as it is written. -/
def numeral (ending : Refusal) : Reader Numeral := do
  let isNegative := (← get).head? = some '-'
  if isNegative then advance
  let whole ← wholeDigits ending
  let fraction ← fractionDigits ending
  return { isNegative, whole, fraction, exponent? := ← exponent ending }

/-- A number, which must not be too large. -/
def number : Reader Number := do
  match (← numeral (.truncated .value)).number? with
  | some number => return number
  | none => refuseLast .tooLarge

/-- The value of a hexadecimal digit. -/
def hexValue? (character : Char) : Option Nat :=
  let code := character.toNat
  if character.isDigit then some (code - 48)
  else if 97 ≤ code ∧ code ≤ 102 then some (code - 87)
  else if 65 ≤ code ∧ code ≤ 70 then some (code - 55)
  else none

/-- The number of four hexadecimal digits.  A document of which fewer than four bytes
are left ends too early, whatever they are; otherwise four bytes are taken. -/
def fourHex : Reader Nat := do
  let rest ← get
  if (← left) < 4 then throw (.truncated .string)
  match (rest.take 4).mapM hexValue? with
  | some [first, second, third, fourth] =>
      set (rest.drop 4)
      return ((first * 16 + second) * 16 + third) * 16 + fourth
  | _ => throw (.malformed .escape ((← left) - 4))

/-- The character of an escape given by number.  A character outside the basic plane
is written as two halves, of which the first comes here. -/
def numberedCharacter : Reader Char := do
  let first ← fourHex
  if 0xDC00 ≤ first ∧ first ≤ 0xDFFF then refuseLast .halfCharacter
  if first < 0xD800 ∨ 0xDBFF < first then return Char.ofNat first
  if (← peek .string) ≠ '\\' then refuseNext .missingHalf
  advance
  if (← peek .string) ≠ 'u' then refuseNext .missingHalf
  advance
  let second ← fourHex
  if second < 0xDC00 ∨ 0xDFFF < second then refuseLast .halfCharacter
  return Char.ofNat (0x10000 + (first - 0xD800) * 0x400 + (second - 0xDC00))

/-- The character of an escape given by one letter. -/
def letterEscape? : Char → Option Char
  | '"' => some '"'
  | '\\' => some '\\'
  | '/' => some '/'
  | 'b' => some '\x08'
  | 'f' => some '\x0c'
  | 'n' => some '\n'
  | 'r' => some '\r'
  | 't' => some '\t'
  | _ => none

/-- The character of an escape, after its backslash.  `numbered` takes the rest of an
escape given by number. -/
def escapedCharacter (numbered : Reader Char) : Reader Char := do
  let letter ← peek .string
  match letterEscape? letter with
  | some character => advance; return character
  | none =>
      if letter ≠ 'u' then refuseNext .escape
      advance
      numbered

/-- An escape given by number of which only the form matters. -/
def skipNumbered : Reader Char := do
  discard fourHex
  return 'u'

/-- The characters up to the closing quote, with escapes given by number taken by
`numbered`.  Each step takes at least one character, so the length of the document
bounds the steps. -/
def characters (numbered : Reader Char) : (steps : Nat) → Reader (List Char)
  | 0 => throw (.truncated .string)
  | steps + 1 => do
      match ← peek .string with
      | '"' => advance; return []
      | '\\' =>
          advance
          let character ← escapedCharacter numbered
          return character :: (← characters numbered steps)
      | character =>
          if character.toNat < 0x20 then refuseNext .control
          advance
          return character :: (← characters numbered steps)

/-- The content of a string, after its opening quote. -/
def content : Reader String := do
  return String.ofList (← characters numberedCharacter ((← get).length + 1))

/-- Refuse a value of the wrong shape.  A value without parts is read to its end
first, so that a mistake in it counts before its shape. -/
def mismatch : Reader Value := do
  match ← mark with
  | 'n' => advance; word ['u', 'l', 'l']
  | 't' => advance; word ['r', 'u', 'e']
  | 'f' => advance; word ['a', 'l', 's', 'e']
  | '"' => advance; discard content
  | '[' | '{' => return (← throw (.unfit none))
  | character =>
      if character == '-' || character.isDigit then discard number else refuseNext .value
  throw (.unfit none)

/-- A string. -/
def string : Reader String := do
  if (← mark) = '"' then advance; content else mismatch

/-- A truth value. -/
def truth : Reader Bool := do
  match ← mark with
  | 't' => advance; word ['r', 'u', 'e']; return true
  | 'f' => advance; word ['a', 'l', 's', 'e']; return false
  | _ => mismatch

/-- A number of either kind. -/
def anyNumber : Reader Number := do
  let character ← mark
  if character == '-' || character.isDigit then number else mismatch

/-- A whole number from `least` to `most`. -/
def whole (least most : Int) : Reader Int := do
  match ← anyNumber with
  | .whole value => if least ≤ value ∧ value ≤ most then return value else throw (.unfit none)
  | .real _ => throw (.unfit none)

/-- A whole number of 64 bits with a sign. -/
def integer : Reader Int := whole (-9223372036854775808) 9223372036854775807

/-- A whole number of 64 bits without a sign. -/
def natural : Reader Nat := return (← whole 0 Numeral.largestWord).toNat

/-- A floating-point number; whole numbers count as such. -/
def real : Reader Float := do
  match ← anyNumber with
  | .whole value => return Float.ofInt value
  | .real value => return value

/-- A value, or null for its absence. -/
def optional (read : Reader Value) : Reader (Option Value) := do
  if (← mark) = 'n' then
    advance
    word ['u', 'l', 'l']
    return none
  else
    return some (← read)

/-- A string that stands for a value, which may be refused with a reason. -/
def ofString (interpret : String → Except (Option String) Value) : Reader Value := do
  match interpret (← string) with
  | .ok value => return value
  | .error reason? => throw (.unfit reason?)

/-- Whether another element of a list follows; the comma before it is dropped. -/
def anotherElement (isFirst : Bool) : Reader Bool := do
  match ← markIn .list with
  | ']' => return false
  | ',' =>
      if !isFirst then advance
      return true
  | _ => if isFirst then return true else refuseNext .listSeparator

/-- Whether another element of a list follows, which is then next. -/
def nextElement (isFirst : Bool) : Reader Bool := do
  if ← anotherElement isFirst then
    if (← mark) = ']' then refuseNext .lastComma else return true
  else
    return false

/-- The end of a list, after its last element. -/
def closeList : Reader Unit := do
  if (← markIn .list) = ']' then advance else refuseNext .leftOver

/-- The elements of a list, each read in the same way.  Each step takes at least one
character, so the length of the document bounds the steps. -/
def elements (read : Reader Value) : (steps : Nat) → (isFirst : Bool) → Reader (List Value)
  | 0, _ => throw (.truncated .list)
  | steps + 1, isFirst => do
      if ← nextElement isFirst then
        let value ← read
        return value :: (← elements read steps false)
      else
        return []

/-- A list of any length. -/
def list (read : Reader Value) : Reader (List Value) := do
  if (← mark) = '[' then
    advance
    let values ← elements read ((← get).length + 1) true
    closeList
    return values
  else
    mismatch

/-- A given number of elements of a list. -/
def exactElements (read : Reader Value) : (count : Nat) → (isFirst : Bool) → Reader (List Value)
  | 0, _ => return []
  | count + 1, isFirst => do
      if ← nextElement isFirst then
        let value ← read
        return value :: (← exactElements read count false)
      else
        throw (.unfit none)

/-- A list of a given length. -/
def tuple (read : Reader Value) (count : Nat) : Reader (List Value) := do
  if (← mark) = '[' then
    advance
    let values ← exactElements read count true
    closeList
    return values
  else
    mismatch

/-- Whether another member of an object follows; the comma before it is dropped. -/
def anotherMember (isFirst : Bool) : Reader Bool := do
  match ← markIn .object with
  | '}' => return false
  | ',' =>
      if isFirst then refuseNext .key
      advance
      return true
  | _ => if isFirst then return true else refuseNext .objectSeparator

/-- Whether another member of an object follows, whose key is then next. -/
def nextMember (isFirst : Bool) : Reader Bool := do
  if ← anotherMember isFirst then
    match ← mark with
    | '"' => return true
    | '}' => refuseNext .lastComma
    | _ => refuseNext .key
  else
    return false

/-- The colon between a key and its value. -/
def colon : Reader Unit := do
  if (← markIn .object) = ':' then advance else refuseNext .colon

/-- The end of an object, after its last member. -/
def closeObject : Reader Unit := do
  if (← markIn .object) = '}' then advance else refuseNext .leftOver

/-- Skip a string, of which only the form matters. -/
def skipString : Reader Unit := do
  advance
  discard (characters skipNumbered ((← get).length + 1))

/-- Skip a value, of which only the form matters.  Every call takes at least one
character, so the length of the document bounds their depth and number. -/
def skipWithin : (steps : Nat) → Reader Unit
  | 0 => throw (.truncated .value)
  | steps + 1 => do
      match ← mark with
      | 'n' => advance; word ['u', 'l', 'l']
      | 't' => advance; word ['r', 'u', 'e']
      | 'f' => advance; word ['a', 'l', 's', 'e']
      | '"' => skipString
      | '[' => advance; skipElements steps true
      | '{' => advance; skipMembers steps true
      | character =>
          if character == '-' || character.isDigit then
            discard (numeral (.malformed .number 0))
          else
            refuseNext .value
where
  /-- Skip the elements of a list and its end. -/
  skipElements : (steps : Nat) → (isFirst : Bool) → Reader Unit
    | 0, _ => throw (.truncated .list)
    | steps + 1, isFirst => do
        if ← anotherElement isFirst then
          skipWithin steps
          skipElements steps false
        else
          closeList
  /-- Skip the members of an object and its end. -/
  skipMembers : (steps : Nat) → (isFirst : Bool) → Reader Unit
    | 0, _ => throw (.truncated .object)
    | steps + 1, isFirst => do
        if ← anotherMember isFirst then
          if (← markIn .object) ≠ '"' then refuseNext .key
          skipString
          colon
          skipWithin steps
          skipMembers steps false
        else
          closeObject

/-- Skip a value, of which only the form matters. -/
def skip : Reader Unit := do
  skipWithin (2 * (← get).length + 2)

/-- A value after which nothing but white space is left over. -/
def alone (read : Reader Value) : Reader Value := do
  let value ← read
  match ← mark? with
  | some _ => refuseNext .leftOver
  | none => return value

/-- Read a whole document. -/
def document (read : Reader Value) (text : String) : Except Refusal Value :=
  (alone read).run' text.toList

end Reader

end Transit.Json
