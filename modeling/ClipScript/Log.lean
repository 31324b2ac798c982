/-
# Log entries

The library reports what it does as entries of a log: a level, the part that
reports, and a text. Entries are values that come with a result; nothing is
written until the command line prints them.
-/

set_option autoImplicit false

namespace ClipScript.Log

/-- How important an entry is. -/
inductive Level where
  | debug
  | info
  | warning
deriving DecidableEq, Repr

/-- The name of a level. -/
def Level.name : Level → String
  | debug => "DEBUG"
  | info => "INFO"
  | warning => "WARNING"

/-- **A log entry.** -/
structure Entry where
  level : Level
  source : String
  text : String
deriving DecidableEq, Repr

/-- An entry as a line of text. -/
def Entry.line (e : Entry) : String :=
  e.level.name ++ " " ++ e.source ++ ": " ++ e.text ++ "\n"

/-- Whether an entry is shown: warnings always, others only to a curious reader. -/
def Entry.isShown (verbose : Bool) (e : Entry) : Bool := verbose || e.level == .warning

end ClipScript.Log
