import Literate.Text.Basic
import Literate.Value.Basic
import Literate.Value.Display

namespace Literate

inductive Level where
  | debug
  | info
  | warning
  | error
  | critical
deriving DecidableEq

namespace Level

def all : List Level := [debug, info, warning, error, critical]

def name : Level → Text
  | debug => "debug"
  | info => "info"
  | warning => "warning"
  | error => "error"
  | critical => "critical"

def capitals (l : Level) : Text := l.name.map Char.toUpper

def severity : Level → Nat
  | debug => 10
  | info => 20
  | warning => 30
  | error => 40
  | critical => 50

def ofName? (s : Text) : Option Level := all.find? fun l => l.name == s

end Level

structure Event where
  level : Level
  name : Text
  fields : Fields

end Literate

namespace Literate.Log

/-- Names that a line uses for itself: fields may not have the first two, and the values of the
other two are written over those of fields. -/
def reservedNames : List Text := ["event", "self"]

/-- The fields of a line, with the name of the event, its level and the time. -/
def lineFields (e : Event) (time : Text) : Fields :=
  Fields.update e.fields
    [("event", .text e.name), ("level", .text e.level.name), ("timestamp", .text time)]

def jsonLine (e : Event) (time : Text) : Text := Json.render (.object (lineFields e time)) ++ "\n"

def needsQuotes (c : Char) : Bool :=
  c == ' ' || c == '\t' || c == '=' || c == '\r' || c == '\n' || c == '"' || c == '\''

/-- A value on a line for a reader: text is bare where that is clear. -/
def shownValue : Value → Text
  | .text s => if s.any needsQuotes then Text.quote s else s
  | v => v.display

/-- Fields shown at the front of a line, in brackets and without their names. -/
def leadingNames : List Text := ["logger", "logger_name"]

def consoleLine (e : Event) (time : Text) : Text :=
  let own : List Text := ["event", "level", "timestamp"]
  let fields := e.fields.filter fun f => f.1 ∉ own
  let leading := leadingNames.filterMap fun name =>
    (Fields.get? fields name).map fun v => '[' :: v.toText ++ [']']
  let others := (fields.filter fun f => f.1 ∉ leadingNames).mergeSort fun f g => Text.le f.1 g.1
  let pairs := others.map fun f => f.1 ++ '=' :: shownValue f.2
  let words := [time, '[' :: Text.padEnd 9 e.level.name ++ [']'], Text.padEnd 30 e.name] ++
    leading ++ pairs
  Text.dropEndWhile (· == ' ') (Text.join [' '] words) ++ "\n"

end Literate.Log

namespace Literate.Clock

/-- The year, month and day that lie so many days after the first of January 1970. Years are counted
from the first of March, so that a leap day ends its year. -/
def civilDate (days : Int) : Int × Nat × Nat :=
  let shifted := days + 719468
  let era := shifted / 146097
  let dayOfEra := (shifted % 146097).toNat
  let yearOfEra := (dayOfEra - dayOfEra / 1460 + dayOfEra / 36524 - dayOfEra / 146096) / 365
  let dayOfYear := dayOfEra - (365 * yearOfEra + yearOfEra / 4 - yearOfEra / 100)
  let shiftedMonth := (5 * dayOfYear + 2) / 153
  let day := dayOfYear - (153 * shiftedMonth + 2) / 5 + 1
  let month := if shiftedMonth < 10 then shiftedMonth + 3 else shiftedMonth - 9
  let year : Int := yearOfEra + era * 400 + if month ≤ 2 then 1 else 0
  (year, month, day)

/-- A moment given in microseconds since the start of 1970. -/
def text (microseconds : Int) : Text :=
  let seconds := microseconds / 1000000
  let (year, month, day) := civilDate (seconds / 86400)
  let ofDay := (seconds % 86400).toNat
  let two (k : Nat) : Text := Text.ofNatPadded 10 2 k
  Text.ofNatPadded 10 4 year.toNat ++ "-" ++ two month ++ "-" ++ two day ++ "T" ++
    two (ofDay / 3600) ++ ":" ++ two (ofDay / 60 % 60) ++ ":" ++ two (ofDay % 60) ++ "." ++
    Text.ofNatPadded 10 6 (microseconds % 1000000).toNat ++ "Z"

end Literate.Clock
