import Dialogue.Player.Basic
import Dialogue.Variables.Columns

/-! # The command line

    Plays a script in the terminal: reads the arguments and the files that they
    name, prints what the player prints, and hands it line after line of input
    until the conversation is over.
-/

namespace Dialogue.Player

/-- The number that the operating system gives a failure of opening or reading.
    It may come with either sign. -/
def codeOf? : IO.Error → Option Nat
  | .noFileOrDirectory _ code _ | .permissionDenied _ code _ | .inappropriateType _ code _
  | .invalidArgument _ code _ => some (min code (-code)).toNat
  | _ => none

/-- What stands at a path. -/
def contentAt (path : Text) : IO (Except ReadError Found) := do
  try
    return .ok (.file (← IO.FS.readBinFile path.string).toList)
  catch e =>
    match (codeOf? e).bind ReadError.ofCode? with
    | none => throw e
    | some .isFolder => return .ok .folder
    | some error => return .error error

/-- Prints a line where it belongs. -/
def Print.write : Print → IO Unit
  | .output line => do
    (← IO.getStdout).putStrLn line
    (← IO.getStdout).flush
  | .error line => IO.eprintln line

/-- Reports a failure, and answers the exit code. -/
def Failure.exit (f : Failure) : IO UInt32 := do
  (fail f).prints.forM Print.write
  return 1

/-- The next line of the input, without the line feed, behind what was read of
    it. At the end of the input there is none. -/
partial def nextLine (input : IO.FS.Stream) (before : List UInt8) : IO (Option (List UInt8)) := do
  match (← input.read 1).toList with
  | [] => return if before.isEmpty then none else some before.reverse
  | 10 :: _ => return some before.reverse
  | byte :: _ => nextLine input (byte :: before)

/-- Follows the input until the conversation or the input is over, and answers
    the exit code. -/
partial def follow (s : Session) : IO UInt32 := do
  match ← nextLine (← IO.getStdin) [] with
  | none => return 0
  | some bytes =>
    match Text.decode bytes with
    | .error _ => Failure.exit (.input .invalidUtf8)
    | .ok line =>
      let r := step s line
      r.prints.forM Print.write
      if r.goesOn then follow r.session else return 0

end Dialogue.Player

open Dialogue Dialogue.Player in
/-- Plays the script that the arguments name. -/
def main (arguments : List String) : IO UInt32 := do
  match Arguments.read (arguments.map String.toList) with
  | .error f => f.exit
  | .ok a =>
    let script ← contentAt a.script
    let table ← a.table.mapM contentAt
    match launch Feed.ofBytes a script table with
    | .error f => f.exit
    | .ok (session, prints) =>
      prints.forM Print.write
      follow session
