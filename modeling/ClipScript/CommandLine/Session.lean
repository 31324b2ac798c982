/-
# Sessions

What a command does is a list of *events* in order: text on standard output, text
on standard error, log entries, calls of the prober, and services that are
offered. A session is these events with an exit status; what appears on each
stream is read off the events. Log entries appear on standard error among the rest,
warnings always and others only when more was asked for.
-/
import ClipScript.Log

set_option autoImplicit false

namespace ClipScript.CommandLine

/-- Something that a command does. -/
inductive Event where
  | output (text : String)
  | complaint (text : String)
  | log (entry : Log.Entry)
  | probe (words : List String)
  | serve (host : String) (port : Int)
deriving DecidableEq

/-- **A session:** the events of a command and its exit status. -/
structure Session where
  status : Nat
  verbose : Bool
  events : List Event

namespace Session

/-- The text on standard output. -/
def stdout (s : Session) : String :=
  String.join <| s.events.filterMap fun
    | .output text => some text
    | _ => none

/-- The text on standard error. -/
def stderr (s : Session) : String :=
  String.join <| s.events.filterMap fun
    | .complaint text => some text
    | .log entry => if entry.isShown s.verbose then some entry.line else none
    | _ => none

/-- The calls of the prober. -/
def probes (s : Session) : List (List String) :=
  s.events.filterMap fun
    | .probe words => some words
    | _ => none

/-- The services that were offered, by host and port. -/
def services (s : Session) : List (String × Int) :=
  s.events.filterMap fun
    | .serve host port => some (host, port)
    | _ => none

end Session

end ClipScript.CommandLine
