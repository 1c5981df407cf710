import Std.Time
import Unformat.CommandLine.Files

/-!
# The program

The outer layer: it reads the command line, the input and the clock, and writes what the program
makes of them.
-/

namespace Unformat.CommandLine

def twoDigits (value : Nat) : String := if value < 10 then s!"0{value}" else toString value

/-- The time of day, as it stands before log entries. -/
def timeStamp : IO String := do
  let time := (← Std.Time.PlainDateTime.now).time
  let parts := [time.hour.val.toNat, time.minute.val.toNat, time.second.val.toNat]
  return ":".intercalate (parts.map twoDigits) ++ " "

/-- The home directory in place of a tilde at the front of a path. -/
def expandHome (path : PathName) : IO PathName := do
  match path.root, path.components, ← IO.getEnv "HOME" with
  | 0, "~" :: rest, some home =>
      let home := PathName.parse home.toList
      return { home with components := home.components ++ rest }
  | _, _, _ => return path

/-- The input that the settings name. -/
def openInput (settings : Settings) : IO InputFile := do
  match settings.inputPath? with
  | none =>
      if settings.explain then return .found (.bytes [])
      let content ← (← IO.getStdin).readBinToEnd
      return .found (.bytes content.toList)
  | some path =>
      let file ← IO.FS.realPath (← expandHome path).text
      if !(← file.pathExists) then
        let directory := PathName.parse (← IO.currentDir).toString.toList
        return .missing (directory.resolve (← expandHome path)).text
      else if ← file.isDir then return .directory file.toString
      else return .found (.bytes (← IO.FS.readBinFile file).toList)

def usage : String :=
  "usage: " ++ programName ++ " [-h] [--version] [-v] [-i FILE] [-m \x7blines,multiple\x7d] " ++
  "[-s SEPARATOR] [-f \x7bjson,tsv,repr\x7d] [--explain] [--buffer-size BYTES] [--eager] " ++
  "template [rules]"

end Unformat.CommandLine

open Unformat CommandLine

def main (arguments : List String) : IO UInt32 := do
  match CommandLine.parse arguments with
  | .error .help =>
      IO.println usage
      return 0
  | .error .version =>
      IO.println s!"{programName} {version}"
      return 0
  | .error (.misuse reason) =>
      IO.eprintln usage
      IO.eprintln s!"{programName}: error: {reason.message}"
      return 2
  | .ok settings =>
      let transcript := CommandLine.run settings (← openInput settings)
      IO.print transcript.outputText
      IO.eprint (transcript.errorText settings.verbosity (← timeStamp))
      match transcript.exitCode with
      | some exitCode => return exitCode.toUInt32
      | none => throw (.userError "the last row would be written for ever")
