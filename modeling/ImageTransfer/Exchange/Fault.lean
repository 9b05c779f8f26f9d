/-!
# Faults

What can go wrong on the way to a registry and back. All faults but those of the machine itself are
faults of the network, which the client reports in its own words.
-/

namespace ImageTransfer

/-- The kind of a fault. -/
inductive FaultKind
  /-- Any fault of a client. -/
  | client
  /-- A body that broke off. -/
  | payload
  /-- A connection that could not be made. -/
  | connection
  /-- A server that took too long. -/
  | serverTimeout
  /-- Anything else that took too long. -/
  | timeout
  /-- A fault of the machine, not of the network. -/
  | system
deriving DecidableEq, Repr

/-- A fault and what it says about itself. -/
structure Fault where
  kind : FaultKind
  text : String
deriving DecidableEq, Repr

namespace FaultKind

/-- The name that stands for a fault that says nothing. -/
def name : FaultKind → String
  | client => "ClientError"
  | payload => "ClientPayloadError"
  | connection => "ClientConnectionError"
  | serverTimeout => "ServerTimeoutError"
  | timeout => "TimeoutError"
  | system => "OSError"

/-- All kinds. -/
def all : List FaultKind := [client, payload, connection, serverTimeout, timeout, system]

/-- The kind of a name. -/
def ofName? (s : String) : Option FaultKind := all.find? (·.name == s)

end FaultKind

namespace Fault

/-- Whether a fault is one of the network. -/
def isNetwork (f : Fault) : Bool := f.kind != .system

/-- A fault in words for people. -/
def reason (f : Fault) : String :=
  match f.kind with
  | .serverTimeout | .timeout => "timed out"
  | kind => if f.text = "" then kind.name else f.text

end Fault

end ImageTransfer
