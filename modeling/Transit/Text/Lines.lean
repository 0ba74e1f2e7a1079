/-!
# Lines of a text

A line feed ends a line, and a carriage return right before it belongs to the end.
What follows the last line feed is a line too, unless nothing follows.
-/

namespace Transit.Text

/-- A line without the carriage return it may end with. -/
def dropReturn (line : List Char) : List Char :=
  if line.getLast? = some '\r' then line.dropLast else line

/-- The lines of a text, without what ends them. -/
def lines (text : String) : List String :=
  let pieces := text.toList.splitOn '\n'
  let ended := pieces.dropLast.map dropReturn
  let last := pieces.getLast?.filter (· ≠ [])
  (ended ++ last.toList).map String.ofList

/-- A text of several lines, each of which is ended. -/
def ofLines (lines : List String) : String :=
  String.join (lines.map fun line => line ++ "\n")

theorem dropReturn_concat (line : List Char) : dropReturn (line ++ ['\r']) = line := by
  simp [dropReturn]

theorem dropReturn_of_getLast?_ne {line : List Char} (other : line.getLast? ≠ some '\r') :
    dropReturn line = line :=
  if_neg other

example : lines "one\r\n\ntwo\r" = ["one", "", "two\r"] := by decide +kernel

example : lines (ofLines ["one\ntwo", "three"]) = ["one", "two", "three"] := by decide +kernel

end Transit.Text
