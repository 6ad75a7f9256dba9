import GuiBuilder.Schema.Scalar

/-!
# Console

The console keeps a log of what happened, each entry with a level. The newest message is the
status, and an error opens the console.
-/

namespace GuiBuilder

/-- How serious a log entry is. -/
inductive Level where
  | info
  | error
  | warn
  | success
deriving DecidableEq

namespace Level

/-- All levels, in the order in which they are listed. -/
def all : List Level := [info, error, warn, success]

/-- The name of a level. -/
def name : Level → String
  | info => "info"
  | error => "error"
  | warn => "warn"
  | success => "success"

/-- Reads a level. -/
def ofValue (v : Value) : Checked Level :=
  (Schema.readAmong (all.map name) v).map fun word =>
    (all.find? fun level => decide (level.name = word)).getD info

end Level

/-- An entry of the log. -/
structure LogEntry where
  level : Level
  message : Text
deriving DecidableEq

/-- Reads a log entry. The message may be any text. -/
def LogEntry.ofValues (level message : Value) : Except Rejection LogEntry :=
  (LogEntry.mk <$> (Level.ofValue level).under (.key "type")
    <*> (Schema.readAnyText message).under (.key "message")).as .logEntry

/-- The console of a session. -/
structure Console where
  /-- The log, oldest entry first. -/
  entries : List LogEntry
  status : Text
  isOpen : Bool
deriving DecidableEq

namespace Console

/-- The console at the start. -/
def initial : Console := ⟨[], "SYSTEM READY", false⟩

/-- The console after an entry. -/
def log (c : Console) (e : LogEntry) : Console where
  entries := c.entries ++ [e]
  status := e.message
  isOpen := c.isOpen || decide (e.level = .error)

/-- The console with an empty log. -/
def clear (c : Console) : Console := { c with entries := [] }

end Console

end GuiBuilder
