import ImageTransfer.CommandLine.Words
import ImageTransfer.Registry.Settings

/-!
# What a command line asks for

A command line has general options, a group of commands, a command of that group, and the options and
arguments of the command. What it asks for is read in that order, with one thing in between: before
the words of a command are read, the settings must make sense.
-/

namespace ImageTransfer.CommandLine

/-- What is to be done. -/
inductive Command
  | copy (source target : String)
  | archive (image : String) (output : Option String)
  | inspect (image : String) (summary : Bool)
  | pull (image digest : String) (output : Option String)
deriving DecidableEq, Repr

namespace Command

/-- The file that a command writes to, if it does not write to standard output. -/
def output? : Command → Option String
  | archive _ output | pull _ _ output => output
  | _ => none

end Command

/-- Why nothing is to be done. -/
inductive Stop
  /-- Help is asked for. -/
  | help
  /-- The words make no sense. -/
  | misuse
deriving DecidableEq, Repr

/-- The exit code that says so. -/
def Stop.exitCode : Stop → Nat
  | help => 0
  | misuse => 2

/-- The options that come before the group of commands. -/
structure Globals where
  verbose : Bool
  strict : Bool
  timeout : Option Int
  plainHosts : List String
deriving DecidableEq, Repr

/-- A command, the settings for it, and how much is logged. -/
structure Invocation where
  settings : Settings
  verbose : Bool
  command : Command

/-- Understands the words of some command. Whoever asks for help gets it, whatever else the words
say, as long as they can be understood. -/
def readWords (u : Usage) (words : List String) : Except Stop Words :=
  match u.read words with
  | none => .error .misuse
  | some w => if w.has .help then .error .help else .ok w

/-- The options that come first. -/
def Globals.usage : Usage := ⟨[.help, .verbose, .timeout, .plainHost, .strict], false⟩

/-- The options that may come between a group and a command of it. -/
def groupUsage : Usage := ⟨[.help], false⟩

namespace Globals

/-- A number of seconds. -/
def readSeconds (text : String) : Except Stop Int :=
  match Decimal.readInteger (text.toList.map Char.toNat) with
  | .ok n => .ok n
  | .error _ => .error .misuse

/-- The general options, and the words after them. -/
def read (words : List String) : Except Stop (Globals × List String) := do
  let w ← readWords usage words
  let timeout ← (w.value? .timeout).mapM readSeconds
  return (⟨w.has .verbose, w.has .strict, timeout, w.values .plainHost⟩, w.arguments)

/-- The settings of an environment, over which the general options win. Hosts that are named there
are added to those of the environment. -/
def settings (g : Globals) (env : Settings.Environment) : Except Settings.Error Settings := do
  let verify := if g.strict then some IntegrityPolicy.strict else none
  let s ← Settings.ofEnvironment env { timeout := g.timeout, verify := verify }
  return s.addPlainHosts g.plainHosts

end Globals

/-- A group of commands. -/
inductive Group
  | image
  | layer
deriving DecidableEq, Repr

/-- The group of a name. -/
def Group.ofName? : String → Option Group
  | "image" => some .image
  | "layer" => some .layer
  | _ => none

/-- Takes a name off the words, if it means something. A word that is no name but asks for help gets
it. -/
def readName {α : Type} (u : Usage) (meaning? : String → Option α) :
    List String → Except Stop (α × List String)
  | [] => .error .misuse
  | name :: rest =>
    match meaning? name with
    | some a => .ok (a, rest)
    | none => do
      let _ ← readWords u (name :: rest)
      .error .misuse

/-- How the words of a command are understood. -/
structure CommandForm where
  flags : List Flag
  /-- The command that the words give, if they have the arguments that it needs. -/
  build : Words → Option Command

namespace CommandForm

/-- Copies an image. -/
def copy : CommandForm where
  flags := [.help]
  build w := match w.arguments with
    | [source, target] => some (.copy source target)
    | _ => none

/-- Exports an image. -/
def archive : CommandForm where
  flags := [.help, .output]
  build w := match w.arguments with
    | [image] => some (.archive image (w.value? .output))
    | _ => none

/-- Shows the configuration of an image. -/
def inspect : CommandForm where
  flags := [.help, .summary]
  build w := match w.arguments with
    | [image] => some (.inspect image (w.has .summary))
    | _ => none

/-- Downloads a blob. -/
def pull : CommandForm where
  flags := [.help, .output]
  build w := match w.arguments with
    | [image, digest] => some (.pull image digest (w.value? .output))
    | _ => none

/-- The command that words ask for. -/
def read (f : CommandForm) (words : List String) : Except Stop Command := do
  let w ← readWords ⟨f.flags, true⟩ words
  match f.build w with
  | some c => .ok c
  | none => .error .misuse

end CommandForm

/-- The command of a name in a group. -/
def Group.command? : Group → String → Option CommandForm
  | image, "copy" => some .copy
  | image, "export" => some .archive
  | image, "inspect" => some .inspect
  | layer, "pull" => some .pull
  | _, _ => none

/-- What a command line asks for. -/
def Invocation.read (env : Settings.Environment) (words : List String) :
    Except Stop Invocation := do
  let (globals, words) ← Globals.read words
  let (group, words) ← readName Globals.usage Group.ofName? words
  let settings ← (globals.settings env).mapError fun _ => Stop.misuse
  let between ← readWords groupUsage words
  let (form, words) ← readName groupUsage group.command? between.arguments
  let command ← form.read words
  return ⟨settings, globals.verbose, command⟩

end ImageTransfer.CommandLine
