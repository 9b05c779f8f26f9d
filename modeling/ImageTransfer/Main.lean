import ImageTransfer.CommandLine.Report
import ImageTransfer.Compression.Decoders

/-!
# The program

Reads the command line and the environment, runs the command, and gives out what the command leaves
behind. The program is linked without a network, so every request of a command comes back as a
connection that could not be made.
-/

namespace ImageTransfer.CommandLine

/-- The variables of the environment that settings are read from. -/
def readEnvironment : IO Settings.Environment :=
  Settings.variableNames.filterMapM fun name => do
    return (← IO.getEnv name).map (name, ·)

/-- Opens a file for writing, and says why if that fails. -/
def openFile (path : String) : IO (Option Failure) := do
  try
    let _ ← IO.FS.Handle.mk path .write
    return none
  catch
    | .noFileOrDirectory .. => return some (.fileMissing path)
    | .inappropriateType .. => return some (.isDirectory path)
    | e => return some (.system (toString e))

/-- A file takes the bytes that a command has left in it, or is removed. -/
def settleFile (path : String) : Option (List UInt8) → IO Unit
  | some bytes => IO.FS.writeBinFile path ⟨bytes.toArray⟩
  | none => IO.FS.removeFile path

/-- How the program is used. -/
def usageText : String :=
  "Usage: registry-image-tools [OPTIONS] image copy SOURCE TARGET\n" ++
  "       registry-image-tools [OPTIONS] image export [-o FILE] IMAGE\n" ++
  "       registry-image-tools [OPTIONS] image inspect [--summary] IMAGE\n" ++
  "       registry-image-tools [OPTIONS] layer pull [-o FILE] IMAGE DIGEST\n" ++
  "Options: --verbose, --timeout SECONDS, --plain-http HOST, --strict\n"

/-- Runs what a command line asks for, and gives the exit code. -/
def runInvocation (i : Invocation) : IO Nat := do
  let stdout ← IO.getStdout
  let stderr ← IO.getStderr
  let refusal ← (i.command.output?.mapM openFile : IO (Option (Option Failure)))
  let unreachable : Fault := ⟨.connection, "no network"⟩
  let world := World.start [] unreachable .unlimited toString
  let (report, _) := i.run Compression.decoder (← stdout.isTty) refusal.join world
  stdout.write ⟨report.output.toArray⟩
  report.lines.forM stderr.putStrLn
  match report.escaped with
  | some f => stderr.putStrLn (f.message.getD "unexpected input")
  | none => pure ()
  match i.command.output?, refusal.join with
  | some path, none => settleFile path report.file
  | _, _ => pure ()
  return report.exitCode

end ImageTransfer.CommandLine

open ImageTransfer.CommandLine in
/-- Runs the command line and ends with its exit code. -/
def main (words : List String) : IO UInt32 := do
  match Invocation.read (← readEnvironment) words with
  | .error stop =>
    (← IO.getStdout).putStr usageText
    return UInt32.ofNat stop.exitCode
  | .ok i => return UInt32.ofNat (← runInvocation i)
