import LivePage.Text.Blank

/-!
# Levels of log lines

How important a log line is.  A program shows the lines up to a level of its
choice.
-/

namespace LivePage

/-- The level of a log line, the most important first. -/
inductive LogLevel where
  | error
  | warn
  | info
  | debug
  | trace
deriving DecidableEq, Repr, Inhabited

namespace LogLevel

/-- The name of a level in log lines. -/
def name : LogLevel → String
  | error => "ERROR"
  | warn => "WARN"
  | info => "INFO"
  | debug => "DEBUG"
  | trace => "TRACE"

/-- How many levels are more important. -/
def rank : LogLevel → Nat
  | error => 0
  | warn => 1
  | info => 2
  | debug => 3
  | trace => 4

/-- Whether lines of a level show where lines up to `limit` do. -/
def shows (limit level : LogLevel) : Bool :=
  level.rank ≤ limit.rank

/-- The level with a name, in any case and between blanks. -/
def ofName? (name : String) : Option LogLevel :=
  match String.ofList ((Text.trim name.toList).map Char.toLower) with
  | "trace" => some trace
  | "debug" => some debug
  | "info" => some info
  | "warn" => some warn
  | "warning" => some warn
  | "error" => some error
  | _ => none

end LogLevel

end LivePage
