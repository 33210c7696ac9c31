/-!
# Contents of files

Reading a file gives its bytes, or fails for a reason that the operating system states
by a number.

Main definitions:

- {lit}`ReadFailure` with {lit}`ReadFailure.ofNumber` and {lit}`ReadFailure.message`.
- {lit}`FileContents`: what became of reading a file.
-/

namespace TapeCalc

/-- Why a file cannot be read. -/
inductive ReadFailure where
  /-- Nothing has the name, or a directory on the way is missing. -/
  | missing
  /-- The file may not be opened. -/
  | denied
  /-- Something on the way to the file is no directory. -/
  | notDirectory
  /-- The name is that of a directory. -/
  | directory
  /-- The name, or a part of it, is too long. -/
  | nameTooLong
  /-- Links on the way lead in circles. -/
  | linkLoop
  /-- Something else happened, told by a number and in words. -/
  | other (number : Nat) (description : String)
deriving DecidableEq, Inhabited

namespace ReadFailure

/-- The failures with words of their own. -/
def named : List ReadFailure := [missing, denied, notDirectory, directory, nameTooLong, linkLoop]

/-- The number the operating system has for a failure. -/
def number : ReadFailure → Nat
  | missing => 2
  | denied => 13
  | notDirectory => 20
  | directory => 21
  | nameTooLong => 36
  | linkLoop => 40
  | other number _ => number

/-- The words the operating system has for a failure. -/
def description : ReadFailure → String
  | missing => "No such file or directory"
  | denied => "Permission denied"
  | notDirectory => "Not a directory"
  | directory => "Is a directory"
  | nameTooLong => "File name too long"
  | linkLoop => "Too many levels of symbolic links"
  | other _ description => description

/-- The failure with a number.  The words are used where the number has none. -/
def ofNumber (number : Nat) (words : String) : ReadFailure :=
  (named.find? fun failure => failure.number = number).getD (other number words)

/-- The text of a failure: its words, and its number behind them. -/
def message (failure : ReadFailure) : String :=
  failure.description ++ " (os error " ++ toString failure.number ++ ")"

end ReadFailure

/-- What became of reading a file. -/
inductive FileContents where
  | bytes (bytes : List UInt8)
  | unreadable (failure : ReadFailure)
deriving DecidableEq

end TapeCalc
