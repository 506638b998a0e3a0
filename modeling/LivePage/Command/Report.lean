import LivePage.Log.Record

/-!
# Reports

What a run of the program leaves: an exit code, what it printed in order, and
the first line on its error output.  A line end in a log record breaks its line,
so that only the first part stands behind a level; the other parts are plain
lines of the output.
-/

namespace LivePage

/-- Something that is printed. -/
inductive Printed where
  | record (record : LogRecord)
  | text (text : String)
deriving Inhabited

namespace Printed

/-- The line with the level, for a record that comes from a part of the program. -/
def leveledLine? (target : String) : Printed → Option String
  | record r =>
      if r.target = target then
        match Text.lines r.text with
        | [] => some ""
        | first :: _ => some (r.leveled first)
      else none
  | text _ => none

def plainLines : Printed → List String
  | record r => (Text.lines r.text).tail
  | text s => Text.lines s

/-- All of the text that is printed, without the line end behind it. -/
def whole : Printed → String
  | record r => r.line
  | text s => s

end Printed

/-- What a run leaves. -/
structure Report where
  code : Nat := 0
  output : List Printed := []
  /-- What stands on the error output. -/
  error : String := ""
deriving Inhabited

namespace Report

def failed (log : Log) (message : String) : Report where
  code := 1
  output := log.map .record
  error := "Error: " ++ message

/-- The lines of the records that come from a part of the program. -/
def linesFrom (report : Report) (target : String) : List String :=
  report.output.filterMap (Printed.leveledLine? target)

/-- The lines without a level, as one text. -/
def plainText (report : Report) : String :=
  "\n".intercalate (report.output.flatMap Printed.plainLines)

def errorLine (report : Report) : String :=
  (Text.lines report.error).headD ""

end Report

end LivePage
