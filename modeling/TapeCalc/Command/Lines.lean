import TapeCalc.Text.Blank

/-!
# Lines of a file

A file is split at its newlines before anything is decoded.  A carriage return directly
in front of a newline belongs to the line end, and what follows the last newline is a
line of its own unless it is empty.

Main definitions:

- {lit}`splitLines`: the lines of a file as bytes.
- {lit}`decodeLine`: the text of a line, if its bytes are one.
-/

namespace TapeCalc

/-- The byte that ends a line. -/
def newline : UInt8 := 10

/-- The byte that may stand in front of a newline. -/
def carriageReturn : UInt8 := 13

/-- A line, newest byte first, without the carriage return at its end. -/
def dropReturn : List UInt8 → List UInt8
  | [] => []
  | byte :: rest => if byte = carriageReturn then rest else byte :: rest

/-- The lines of what is left of a file, given the bytes of the current line, newest first. -/
def splitLinesFrom (current : List UInt8) : List UInt8 → List (List UInt8)
  | [] => if current.isEmpty then [] else [current.reverse]
  | byte :: rest =>
    if byte = newline then (dropReturn current).reverse :: splitLinesFrom [] rest
    else splitLinesFrom (byte :: current) rest

/-- The lines of a file. -/
def splitLines (bytes : List UInt8) : List (List UInt8) := splitLinesFrom [] bytes

/-- The text of a line, if its bytes are valid. -/
def decodeLine (bytes : List UInt8) : Option String := String.fromUTF8? ⟨bytes.toArray⟩

/-- Whether a line holds nothing but white space. -/
def isBlankLine (line : String) : Bool := line.toList.all isWhiteSpace

end TapeCalc
