import RegisterMachine.CommandLine

/-! # The program

The tool as a program: it reads the file that a command works on, and prints the report of the
command.
-/

namespace RegisterMachine

/-- The text of an error of the operating system with its number, which may be given as a negative
one. -/
def systemError (code : UInt32) (text : String) : String :=
  text.capitalize ++ " (os error " ++ toString code.toInt32.toInt.natAbs ++ ")"

/-- Why a file could not be read. -/
def readFailure : IO.Error → String
  | .alreadyExists _ code text => systemError code text
  | .otherError code text => systemError code text
  | .resourceBusy code text => systemError code text
  | .resourceVanished code text => systemError code text
  | .unsupportedOperation code text => systemError code text
  | .hardwareFault code text => systemError code text
  | .unsatisfiedConstraints code text => systemError code text
  | .illegalOperation code text => systemError code text
  | .protocolError code text => systemError code text
  | .timeExpired code text => systemError code text
  | .interrupted _ code text => systemError code text
  | .noFileOrDirectory _ code text => systemError code text
  | .invalidArgument _ code text => systemError code text
  | .permissionDenied _ code text => systemError code text
  | .resourceExhausted _ code text => systemError code text
  | .inappropriateType _ code text => systemError code text
  | .noSuchThing _ code text => systemError code text
  | .unexpectedEof => "failed to fill whole buffer"
  | .userError text => text

/-- Reads a file that holds text. -/
def readText (path : String) : IO (Except String String) := do
  match ← (IO.FS.readBinFile path).toBaseIO with
  | .error e => return .error (readFailure e)
  | .ok bytes =>
    match String.fromUTF8? bytes with
    | some text => return .ok text
    | none => return .error "stream did not contain valid UTF-8"

end RegisterMachine

/-- Performs the command that the arguments ask for. -/
def main (args : List String) : IO UInt32 := do
  let report ← RegisterMachine.respond RegisterMachine.readText args
  IO.print report.out
  IO.eprint report.err
  return report.code.toUInt32
