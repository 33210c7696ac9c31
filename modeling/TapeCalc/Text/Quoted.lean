import TapeCalc.Text.HiddenTable

/-!
# Quoted text

A text between quotation marks can be told apart from what surrounds it.  The marks that
would end it are escaped, and a character that does not show by itself is written as its
code.

Main definitions:

- {lit}`isHidden`: characters that do not show by themselves.
- {lit}`quote`: a text between quotation marks.
-/

namespace TapeCalc

/-- Whether a code point lies in one of ascending ranges. -/
def liesIn (code : Nat) : List (Nat × Nat) → Bool
  | [] => false
  | (first, last) :: rest =>
    if code < first then false
    else if code ≤ last then true
    else liesIn code rest

/-- Whether a character does not show by itself. -/
def isHidden (c : Char) : Bool := liesIn c.toNat hiddenRanges

/-- The code of a character between braces, in hexadecimal digits. -/
def codeEscape (c : Char) : List Char :=
  ['\\', 'u', '\x7b'] ++ Nat.toDigits 16 c.toNat ++ ['\x7d']

/-- A character between quotation marks. -/
def quoteChar (c : Char) : List Char :=
  if c = '"' then ['\\', '"']
  else if c = '\\' then ['\\', '\\']
  else if c = '\t' then ['\\', 't']
  else if c = '\n' then ['\\', 'n']
  else if c = '\r' then ['\\', 'r']
  else if c = '\x00' then ['\\', '0']
  else if isHidden c then codeEscape c
  else [c]

/-- A text between quotation marks. -/
def quote (text : String) : String :=
  "\"" ++ String.ofList (text.toList.flatMap quoteChar) ++ "\""

end TapeCalc
