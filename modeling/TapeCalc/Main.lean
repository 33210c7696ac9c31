import TapeCalc.Command.Session

/-!
# The program

The command line reads its arguments and the file they name, and prints the response.
-/

namespace TapeCalc

/-- The number the operating system gave with an error.  Opening a file negates it. -/
def systemNumber (code : UInt32) : Nat :=
  if code.toNat < 0x80000000 then code.toNat else 0x100000000 - code.toNat

/-- The failure behind an error. -/
def readFailure (error : IO.Error) : ReadFailure :=
  match error with
  | .noFileOrDirectory _ code words => .ofNumber (systemNumber code) words
  | .permissionDenied _ code words => .ofNumber (systemNumber code) words
  | .inappropriateType _ code words => .ofNumber (systemNumber code) words
  | .invalidArgument _ code words => .ofNumber (systemNumber code) words
  | .noSuchThing _ code words => .ofNumber (systemNumber code) words
  | .resourceExhausted _ code words => .ofNumber (systemNumber code) words
  | .hardwareFault code words => .ofNumber (systemNumber code) words
  | _ => .ofNumber 0 (toString error)

/-- What a file holds, or why it cannot be read. -/
def readContents (path : String) : IO FileContents := do
  try
    return .bytes (← IO.FS.readBinFile path).toList
  catch error => return .unreadable (readFailure error)

end TapeCalc

open TapeCalc

/-- Answer the request the arguments make. -/
def main (arguments : List String) : IO UInt32 := do
  let request := Request.ofArguments arguments
  let contents ←
    match request.path? with
    | some path => readContents path
    | none => pure (.bytes [])
  let response := request.respond contents
  IO.print response.output
  IO.eprint response.errors
  return UInt32.ofNat response.status
