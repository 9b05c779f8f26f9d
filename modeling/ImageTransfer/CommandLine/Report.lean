import ImageTransfer.CommandLine.Invocation
import ImageTransfer.Transfer.ByName

/-!
# What a command leaves behind

A command ends with an exit code, with what it wrote to standard output or to a file, and with lines
for people: what was logged, and why it failed. Failures that people can do something about are
reported in words, and then a file that was begun is gone. All other failures end the program as they
are, and leave the file as it is.
-/

namespace ImageTransfer.CommandLine

open Exchange

/-- The end of a command. -/
structure Report where
  exitCode : Nat
  /-- The failure that ended the program as it is, if one did. -/
  escaped : Option Failure
  /-- What was written to standard output. -/
  output : List UInt8
  /-- The file that was written to, if it is there. -/
  file : Option (List UInt8)
  /-- The lines for people. -/
  lines : List String

/-- The name under which a part of the program writes to the log. -/
def logName : LogSource → String
  | .client => "registry_image_tools.core.registry_client"
  | .copying => "registry_image_tools.operations.copy"
  | .exporting => "registry_image_tools.operations.export"
  | .inspecting => "registry_image_tools.operations.inspect"
  | .pulling => "registry_image_tools.operations.blobs"
  | .integrity => "registry_image_tools.operations.integrity"
  | .commandLine => "registry_image_tools.cli"

/-- The line of an event, if people see it. What is only good for finding faults is seen if it is
asked for. -/
def logLine? (verbose : Bool) : Event → Option String
  | .logged source level message =>
    if level = .debug ∧ verbose = false then none
    else some s!"{level.name} {logName source}: {message}"
  | _ => none

/-- Whether a failure is reported in words. -/
def isReported (kind : FailureKind) : Bool := kind.isRegistry || kind == .argument || kind == .encoding

/-- A line that reports a failure. -/
def errorLine (message : String) : String := s!"Error: {message}"

/-- Writes a line. -/
def writeLine (s : String) : Exchange Unit := write (Text.utf8OfString (s ++ "\n"))

/-- The configuration of an image, whole or in short. -/
def shownConfig (summary : Bool) (config : Json.Members) : Except ImageConfig.Error Json.Value :=
  if summary then (ImageConfig.summary config).bind ImageConfig.Summary.copied
  else .ok (.object config)

/-- Does what a command says. -/
def Command.perform (decoders : Compression.Decoders) (s : Settings) : Command → Exchange Unit
  | copy source target => do
    let digest ← ByName.copyImage (.ok s) source target false
    writeLine digest
  | archive image _ => do
    let exported ← ByName.exportImage decoders (.ok s) image false
    let layers := Json.Value.shown (.array (exported.entry.layers.map .ofString))
    log .commandLine .debug s!"Archive config {exported.entry.config}, layers {layers}"
  | inspect image summary => do
    let config ← ByName.inspectImage (.ok s) image
    writeLine (Json.indented (← ofExcept (shownConfig summary config) .config))
  | pull image digest _ => do
    let _ ← ByName.pullBlob (.ok s) image digest

namespace Invocation

/-- Whether a command would write an archive to a terminal. -/
def floodsTerminal (i : Invocation) (isTerminal : Bool) : Bool :=
  match i.command with
  | .archive _ none => isTerminal
  | _ => false

/-- What a command leaves behind in the world that it has run in. -/
def reportOf (i : Invocation) (result : Except Failure Unit) (w : World) : Report :=
  let written := w.sink.bytes
  let toFile := i.command.output?.isSome
  let output := if toFile then [] else written
  let file := if toFile then some written else none
  let lines := w.events.toList.filterMap (logLine? i.verbose)
  match result with
  | .ok () => ⟨0, none, output, file, lines⟩
  | .error f =>
    if isReported f.kind then
      ⟨1, none, output, none, lines ++ [errorLine (f.message.getD "")]⟩
    else ⟨1, some f, output, file, lines⟩

/-- Runs a command. `refusal` says why its file cannot be opened, if that is so; the sink of the world
is the file, or standard output. -/
def run (decoders : Compression.Decoders) (i : Invocation) (isTerminal : Bool)
    (refusal : Option Failure) (w : World) : Report × World :=
  if i.floodsTerminal isTerminal then
    (⟨1, none, [], none,
      [errorLine "refusing to write an archive to a terminal, use --output"]⟩, w)
  else match refusal with
    | some f => (⟨1, some f, [], none, []⟩, w)
    | none =>
      let (result, w) := (i.command.perform decoders i.settings).run w
      (i.reportOf result w, w)

end Invocation

end ImageTransfer.CommandLine
