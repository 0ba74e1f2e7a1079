import Transit.Text.Numeral

/-!
# Writing JSON documents

A value to be written, and its form on several lines: two blanks for each level, one
member or element a line, and an empty list or object on one line.  Strings escape
the quote, the backslash and control characters and nothing else.
-/

namespace Transit.Json

/-- A value of a document that is written. -/
inductive Value where
  | null
  | truth (value : Bool)
  | whole (value : Int)
  | string (value : String)
  | list (elements : List Value)
  | object (members : List (String × Value))

namespace Value

/-- A string, or null for its absence. -/
def ofOption : Option String → Value
  | some value => string value
  | none => null

/-- A character as it stands in a string. -/
def escaped (character : Char) : List Char :=
  match character with
  | '"' => ['\\', '"']
  | '\\' => ['\\', '\\']
  | '\x08' => ['\\', 'b']
  | '\x0c' => ['\\', 'f']
  | '\n' => ['\\', 'n']
  | '\r' => ['\\', 'r']
  | '\t' => ['\\', 't']
  | other =>
      if other.toNat < 0x20 then
        ['\\', 'u', '0', '0', Nat.digitChar (other.toNat / 16), Nat.digitChar (other.toNat % 16)]
      else
        [other]

/-- A string with its quotes. -/
def quoted (text : String) : String :=
  String.ofList ('"' :: text.toList.flatMap escaped ++ ['"'])

/-- A new line and the blanks of its level. -/
def newLine (level : Nat) : String :=
  String.ofList ('\n' :: List.replicate (2 * level) ' ')

/-- Parts between two marks, each on a line of its own. -/
def block (opening closing : String) (level : Nat) (parts : List String) : String :=
  if parts.isEmpty then opening ++ closing
  else
    opening ++ newLine (level + 1) ++ String.intercalate ("," ++ newLine (level + 1)) parts ++
      newLine level ++ closing

mutual

/-- The form on several lines, of which the first is on a level. -/
def lines (level : Nat) : Value → String
  | null => "null"
  | truth value => if value then "true" else "false"
  | whole value => toString value
  | string value => quoted value
  | list elements => block "[" "]" level (elementLines (level + 1) elements)
  | object members => block "\x7b" "\x7d" level (memberLines (level + 1) members)

/-- The elements of a list. -/
def elementLines (level : Nat) : List Value → List String
  | [] => []
  | value :: rest => lines level value :: elementLines level rest

/-- The members of an object. -/
def memberLines (level : Nat) : List (String × Value) → List String
  | [] => []
  | (key, value) :: rest =>
      (quoted key ++ ": " ++ lines level value) :: memberLines level rest

end

end Value

end Transit.Json
