import ImageTransfer.Exchange.Message

/-!
# Events

Everything that a run does and that can be seen from outside, in the order in which it happens:
sessions that are opened and closed, requests, responses that are opened and released, lines of the
log and reports of progress.
-/

namespace ImageTransfer

/-- Whose session it is: a client keeps one, a probe has one for itself. -/
inductive SessionOwner
  | client
  | probe
deriving DecidableEq, Repr

/-- How much a line of the log matters. -/
inductive LogLevel
  | debug
  | info
  | warning
deriving DecidableEq, Repr

/-- The word for a level. -/
def LogLevel.name : LogLevel → String
  | debug => "DEBUG"
  | info => "INFO"
  | warning => "WARNING"

/-- The part of the program that writes to the log. -/
inductive LogSource
  | client
  | copying
  | exporting
  | inspecting
  | pulling
  | integrity
  | commandLine
deriving DecidableEq, Repr

/-- How a session introduces itself to registries. -/
def userAgent : String := "registry-image-tools/0.1"

/-- Something that happens in a run. -/
inductive Event
  | sessionOpened (owner : SessionOwner) (timeout : Nat)
  | sessionClosed (owner : SessionOwner)
  | sent (r : Request)
  | opened (r : Response)
  | released
  | logged (source : LogSource) (level : LogLevel) (message : String)
  | progressed (current total : Int) (message : String)

/-- The request that an event is. -/
def Event.request? : Event → Option Request
  | .sent r => some r
  | _ => none

end ImageTransfer
