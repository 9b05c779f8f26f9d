import ImageTransfer.Exchange.Disk
import ImageTransfer.Exchange.Event
import ImageTransfer.Exchange.Sink
import ImageTransfer.Failure

/-!
# Runs

A run of an operation is a function of the world it runs in: what registries will answer, whether the
client has a session, where output goes, what is stored on the machine, what new directories are
named, and which changes of its disk the machine refuses. It changes that world, adds to the record
of events, and gives a value or a failure.

What is opened here is released here: a response by `withResponse`, and a directory to work in by
`withWorkDirectory`, on every path.
-/

namespace ImageTransfer

/-- The world that operations run in. -/
structure World where
  /-- What is going to come of requests, in order. -/
  answers : List Answer
  /-- What comes of requests after that. -/
  silence : Fault
  /-- Whether the client has a session. -/
  hasSession : Bool
  /-- What has happened. -/
  events : Array Event
  sink : Sink
  /-- The names that the machine tries for new directories, one after the other. -/
  names : Nat → String
  /-- How many of these names have been tried. -/
  named : Nat
  disk : Disk
  /-- Where directories are made that are needed for a while. -/
  temporary : Archive.Path
  /-- What the machine refuses a change of the disk with, by the number of the change. -/
  refusal? : Nat → Option String
  /-- How many changes of the disk have been asked for. -/
  changes : Nat

/-- A run: it changes the world, and gives a value or fails. -/
abbrev Exchange := ExceptT Failure (StateM World)

namespace World

/-- A world in which nothing has happened and nothing is stored, on a machine that refuses nothing. -/
def start (answers : List Answer) (silence : Fault) (sink : Sink) (names : Nat → String) : World :=
  ⟨answers, silence, false, #[], sink, names, 0, .empty, [], fun _ => none, 0⟩

/-- The world after an event. -/
def note (w : World) (e : Event) : World := { w with events := w.events.push e }

/-- The world after a write to the sink, and whether the sink refused it. -/
def write (w : World) (piece : List UInt8) : Bool × World :=
  let refused := w.sink.refuses piece
  (refused, { w with sink := w.sink.write piece })

/-- The world after a change of the disk, and what the change was refused with, if it was. -/
def change (w : World) (f : Disk → Disk) : Option String × World :=
  match w.refusal? w.changes with
  | some reason => (some reason, { w with changes := w.changes + 1 })
  | none => (none, { w with changes := w.changes + 1, disk := f w.disk })

end World

/-- The failure that a fault makes: one of the network is explained, one of the machine is itself. -/
def Fault.failure (f : Fault) (explain : String → Failure) : Failure :=
  if f.isNetwork then explain f.reason else .system f.text

namespace Exchange

/-- Records an event. -/
def note (e : Event) : Exchange Unit := modify (·.note e)

/-- Writes to the log. -/
def log (source : LogSource) (level : LogLevel) (message : String) : Exchange Unit :=
  note (.logged source level message)

/-- Reports progress, if somebody listens. -/
def report (listens : Bool) (current total : Int) (message : String) : Exchange Unit :=
  if listens then note (.progressed current total message) else pure ()

/-- Makes an error a failure. -/
def ofExcept {ε α : Type} (x : Except ε α) (failure : ε → Failure) : Exchange α :=
  match x with
  | .ok a => pure a
  | .error e => throw (failure e)

/-- Runs something and then changes the world, whether it fails or not. -/
def withCleanup {α : Type} (x : Exchange α) (cleanup : World → World) : Exchange α := fun w =>
  let (result, w) := x w
  (result, cleanup w)

/-- Sends a request, and gives the response that it opens or a fault. -/
def send (r : Request) : Exchange (Except Fault Response) := do
  note (.sent r)
  let w ← get
  match w.answers with
  | [] => return .error w.silence
  | .fault f :: rest =>
    set { w with answers := rest }
    return .error f
  | .response response :: rest =>
    set { w with answers := rest }
    note (.opened response)
    return .ok response

/-- Uses a response and releases it, whatever comes of it. -/
def releasing {α : Type} (x : Exchange α) : Exchange α := withCleanup x (·.note .released)

/-- Sends a request, uses its response and releases it. A fault in place of a response fails, and is
explained if it is one of the network. -/
def withResponse {α : Type} (r : Request) (explain : String → Failure)
    (use : Response → Exchange α) : Exchange α := do
  match ← send r with
  | .error f => throw (f.failure explain)
  | .ok response => releasing (use response)

/-- Sends a request and uses its response, or gives a value in place of a fault of the network. -/
def withResponseOr {α : Type} (r : Request) (otherwise : Exchange α)
    (use : Response → Exchange α) : Exchange α := do
  match ← send r with
  | .error f => if f.isNetwork then otherwise else throw (.system f.text)
  | .ok response => releasing (use response)

/-- The whole body of a response; if it breaks off, that fails. -/
def readBody (response : Response) (explain : String → Failure) : Exchange (List UInt8) :=
  match response.broken with
  | none => pure response.body
  | some f => throw (f.failure explain)

/-- Opens the client's session, unless it has one. -/
def ensureSession (timeout : Nat) : Exchange Unit := do
  let w ← get
  if w.hasSession then pure ()
  else set ({ w with hasSession := true }.note (.sessionOpened .client timeout))

/-- The world after the client's session has been closed, if there was one. -/
def closed (w : World) : World :=
  if w.hasSession then { w with hasSession := false }.note (.sessionClosed .client) else w

/-- Closes the client's session, if it has one. -/
def close : Exchange Unit := modify closed

/-- Runs something with the client's session open, and closes it in the end. -/
def withSession {α : Type} (timeout : Nat) (x : Exchange α) : Exchange α := do
  ensureSession timeout
  withCleanup x closed

/-- Writes to the sink; a full sink fails. -/
def write (piece : List UInt8) : Exchange Unit := do
  if ← modifyGet (·.write piece) then throw (.system (← get).sink.refusal)

/-- Changes the disk, unless the machine refuses to. -/
def changeDisk (f : Disk → Disk) : Exchange Unit := do
  match ← modifyGet (·.change f) with
  | some reason => throw (.system reason)
  | none => pure ()

/-- Whether something is stored at a path. -/
def isStored (p : Archive.Path) : Exchange Bool := do return (← get).disk.has p

/-- Whether a file may grow by so many bytes. -/
def hasRoom (p : Archive.Path) (count : Nat) : Exchange Bool := do
  return (← get).disk.sizeOf p + count ≤ Disk.fileLimit

/-- Adds to a file; nothing is no write. -/
def appendFile (p : Archive.Path) (piece : List UInt8) : Exchange Unit := do
  if piece.isEmpty then pure ()
  else if ← hasRoom p piece.length then changeDisk (·.appendFile p piece)
  else throw (.system "[Errno 27] File too large")

/-- Stores a file that was last changed at some time. -/
def storeFile (p : Archive.Path) (bytes : List UInt8) (modified : Int) : Exchange Unit := do
  changeDisk (·.createFile p)
  appendFile p bytes
  changeDisk (·.setModified p modified)

/-- The next name to try for a new directory. -/
def nextName : Exchange String := do
  let w ← get
  set { w with named := w.named + 1 }
  return w.names w.named

/-- How many names are tried for a new directory. -/
def nameAttempts : Nat := 10000

/-- Makes a directory inside another one, under the first name that is free of as many as are left to
try. -/
def newDirectory (parent : Archive.Path) (beginning : String) : Nat → Exchange Archive.Path
  | 0 => throw (.system "[Errno 17] No usable temporary directory name found")
  | attempts + 1 => do
    let name ← nextName
    let path := parent ++ [beginning ++ name]
    if ← isStored path then newDirectory parent beginning attempts
    else
      changeDisk (·.makeDirectory path)
      return path

/-- Runs something in a directory to work in, which is gone in the end with all that is in it: its
removal is assumed to succeed. -/
def withWorkDirectory {α : Type} (beginning : String) (x : Archive.Path → Exchange α) :
    Exchange α := do
  let path ← newDirectory (← get).temporary beginning nameAttempts
  withCleanup (x path) fun w => { w with disk := w.disk.remove path }

/-- Runs something and changes what it fails with. -/
def mapFailure {α : Type} (x : Exchange α) (f : Failure → Failure) : Exchange α :=
  tryCatch x fun e => throw (f e)

/-- Runs something and warns in the log before it fails as registries do. -/
def warnOnFailure {α : Type} (source : LogSource) (message : String → String) (x : Exchange α) :
    Exchange α :=
  tryCatch x fun e => do
    if e.kind.isRegistry then log source .warning (message (e.message.getD ""))
    throw e

end Exchange

end ImageTransfer
