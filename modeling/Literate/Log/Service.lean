import Literate.Fault.Basic
import Literate.Log.Event
import Literate.Settings.Basic

namespace Literate.Log

structure Config where
  level : Text
  format : Text
deriving DecidableEq

/-- The service; `level` is the level of the last configuration that was attempted as a whole or
succeeded, and `names` are those of the loggers handed out. -/
structure Service where
  configured : Bool
  level : Text
  config : Option Config
  names : List Text
deriving DecidableEq

inductive Failure where
  | alreadyConfigured
  | notConfigured
  /-- A level or a format that is no text. -/
  | notText
  | invalidLevel (given : Text)
  | invalidFormat (given : Text)
  /-- A level that names nothing. -/
  | unknownLevel
  /-- A level that names something other than a threshold. -/
  | levelWithoutThreshold
  /-- A level that names a collection. -/
  | levelOfCollection
  | emptyName
  | longName
  | emptyOperation
  | durationNotNumber
  | negativeDuration
  /-- A field with a name that lines use for themselves. -/
  | reservedField
  | settings (issues : List Issue)
deriving DecidableEq

namespace Failure

def kind : Failure → Text
  | alreadyConfigured | notConfigured => "RuntimeError"
  | notText | unknownLevel => "AttributeError"
  | levelWithoutThreshold => "KeyError"
  | levelOfCollection | reservedField | durationNotNumber => "TypeError"
  | _ => "ValueError"

def levelList : Text := Text.join ", " (Level.all.map Level.capitals)

def message : Failure → Text
  | alreadyConfigured => "Logging already configured"
  | notConfigured => "Logging not configured. Call configure_logging() first."
  | invalidLevel given => "Invalid log level: " ++ given ++ ". Must be one of: " ++ levelList
  | invalidFormat given => "Invalid format: " ++ given ++ ". Must be 'json' or 'console'"
  | emptyName => "Logger name cannot be empty"
  | longName => "Logger name exceeds maximum length (200)"
  | emptyOperation => "operation cannot be empty"
  | negativeDuration => "duration_ms cannot be negative"
  | _ => []

def fault : Failure → Fault
  | settings issues => .invalid issues
  | f => .outside f.kind f.message

end Failure

/-- The thresholds by the names that a whole configuration may use. -/
def thresholds : List (String × Nat) :=
  [("CRITICAL", 50), ("FATAL", 50), ("ERROR", 40), ("WARNING", 30), ("WARN", 30), ("INFO", 20),
   ("DEBUG", 10), ("NOTSET", 0)]

def threshold? (name : Text) : Option Nat :=
  (thresholds.find? fun p => p.1.toList == name).map (·.2)

/-- The names that stand for something other than a number of a threshold. -/
def otherNames : List String :=
  ["BASIC_FORMAT", "BufferingFormatter", "FileHandler", "Filter", "Filterer", "Formatter",
   "GenericAlias", "Handler", "LogRecord", "Logger", "LoggerAdapter", "Manager", "NullHandler",
   "PercentStyle", "PlaceHolder", "RootLogger", "StrFormatStyle", "StreamHandler",
   "StringTemplateStyle", "Template", "_StderrHandler", "__author__", "__cached__", "__class__",
   "__date__", "__delattr__", "__dir__", "__doc__", "__eq__", "__file__", "__format__", "__ge__",
   "__getattribute__", "__getstate__", "__gt__", "__hash__", "__init__", "__init_subclass__",
   "__le__", "__loader__", "__lt__", "__name__", "__ne__", "__new__", "__package__", "__reduce__",
   "__reduce_ex__", "__repr__", "__setattr__", "__sizeof__", "__status__", "__str__",
   "__subclasshook__", "__version__", "_acquireLock", "_addHandlerRef",
   "_after_at_fork_child_reinit_locks", "_checkLevel", "_defaultFormatter", "_defaultLastResort",
   "_is_internal_frame", "_lock", "_logRecordFactory", "_loggerClass",
   "_register_at_fork_reinit_lock", "_releaseLock", "_removeHandlerRef", "_showwarning",
   "_srcfile", "_startTime", "_str_formatter", "_warnings_showwarning", "addLevelName", "atexit",
   "basicConfig", "captureWarnings", "collections", "critical", "currentframe", "debug",
   "disable", "error", "exception", "fatal", "getLevelName", "getLevelNamesMapping",
   "getLogRecordFactory", "getLogger", "getLoggerClass", "info", "io", "lastResort", "log",
   "logMultiprocessing", "logProcesses", "logThreads", "makeLogRecord", "os", "raiseExceptions",
   "re", "root", "setLogRecordFactory", "setLoggerClass", "shutdown", "sys", "threading", "time",
   "traceback", "warn", "warning", "warnings", "weakref"]

/-- The names among which no number is looked for: they stand for collections. -/
def collectionNames : List String :=
  ["_STYLES", "__all__", "__annotations__", "__builtins__", "__dict__", "__path__", "__spec__",
   "_at_fork_reinit_lock_weakset", "_handlerList", "_handlers", "_levelToName", "_nameToLevel"]

namespace Service

def initial : Service := ⟨false, "INFO", none, []⟩

/-- Takes a configuration as a whole. A level without threshold is stored all the same. -/
def configureWith (s : Service) (c : Config) : Except Failure Unit × Service :=
  if s.configured then (.error .alreadyConfigured, s)
  else
    let stored := { s with config := some c, level := c.level }
    match threshold? c.level with
    | some _ => (.ok (), { stored with configured := true })
    | none =>
      let named (names : List String) : Bool := names.any fun name => name.toList == c.level
      if named otherNames then (.error .levelWithoutThreshold, stored)
      else if named collectionNames then (.error .levelOfCollection, stored)
      else (.error .unknownLevel, stored)

def config? (level format : Text) : Except Failure Config :=
  match Level.ofCapitals? level with
  | none => .error (.invalidLevel level)
  | some l =>
    match LogFormat.ofText? format with
    | none => .error (.invalidFormat format)
    | some f => .ok ⟨l.capitals, f.name⟩

/-- Checks a level and a format and takes them as the configuration. -/
def configure (s : Service) (level format : Text) : Except Failure Unit × Service :=
  if s.configured then (.error .alreadyConfigured, s)
  else
    match config? level format with
    | .error e => (.error e, s)
    | .ok c => s.configureWith c

/-- The same for values of which it is not known whether they are text. -/
def configureValues (s : Service) (level format : Value) : Except Failure Unit × Service :=
  match level, format with
  | .text l, .text f => s.configure l f
  | .text l, _ =>
    if s.configured then (.error .alreadyConfigured, s)
    else if (Level.ofCapitals? l).isNone then (.error (.invalidLevel l), s)
    else (.error .notText, s)
  | _, _ => (.error (if s.configured then .alreadyConfigured else .notText), s)

/-- A level or a format that is not given, or empty, is taken from the settings when one of the two
is not given at all. -/
def configureFrom (s : Service) (level format : Option Text) (settings : Checked Settings) :
    Except Failure Unit × Service :=
  match level, format with
  | some l, some f => s.configure l f
  | _, _ =>
    match settings with
    | .error issues => (.error (.settings issues), s)
    | .ok given =>
      let chosen (x : Option Text) (default : Text) : Text :=
        match x with
        | some (c :: t) => c :: t
        | _ => default
      s.configure (chosen level given.logLevel.capitals) (chosen format given.logFormat.name)

def reset (_ : Service) : Service := initial

def logger (s : Service) (name : Text) : Except Failure Unit × Service :=
  if !s.configured then (.error .notConfigured, s)
  else if name.isEmpty then (.error .emptyName, s)
  else if 200 < name.length then (.error .longName, s)
  else if name ∈ s.names then (.ok (), s)
  else (.ok (), { s with names := s.names ++ [name] })

def admits (s : Service) (l : Level) : Bool :=
  match s.configured, s.config.bind fun c => threshold? c.level with
  | true, some least => decide (least ≤ l.severity)
  | _, _ => false

/-- The line of an event; only the exact name of the console format chooses that format. -/
def line (s : Service) (e : Event) (time : Text) : Text :=
  if s.config.any fun c => c.format == LogFormat.console.name then consoleLine e time
  else jsonLine e time

def write (s : Service) (e : Event) (time : Text) : Except Failure Text :=
  if e.fields.any fun f => f.1 ∈ reservedNames then .error .reservedField
  else .ok (if s.admits e.level then s.line e time else [])

def log (s : Service) (name : Text) (e : Event) (time : Text) : Except Failure Text × Service :=
  match s.logger name with
  | (.error f, s) => (.error f, s)
  | (.ok _, s) => (s.write e time, s)

end Service

/-- What is known of an error that is logged. -/
structure Problem where
  kind : Text
  message : Text
  code : Value
  correlation : Value

namespace Problem

def ofReport (r : Report) (fresh : Text) : Problem :=
  ⟨r.kind.name, r.str, r.code, r.correlation.getD (.text fresh)⟩

def ofMishap (m : Mishap) : Problem := ⟨m.kind, m.message, .null, .null⟩

def defaultLogger : Text := "litweave"

/-- The trace of a program in which nothing is being handled. -/
def emptyTrace : Text := "NoneType: None\n"

/-- The context is written over what the error tells. -/
def event (p : Problem) (context : Fields) (trace : Bool) : Event :=
  let present (name : String) (v : Value) : Fields := if v.isTruthy then [(name, v)] else []
  let told : Fields := ("error_type", .text p.kind) :: ("error_message", .text p.message) ::
    (present "error_code" p.code ++ present "correlation_id" p.correlation)
  let fields := Fields.update told context
  ⟨.error, "error_occurred",
    if trace then Fields.set fields "stack_trace" (.text emptyTrace) else fields⟩

end Problem

namespace Measurement

/-- Milliseconds with at most three places. -/
def rounded : Number → Number
  | .int i => .int i
  | .float x => .float (Decimal.roundPlaces 3 x)

/-- How long an operation took; the details are written over the measurement. -/
def event (operation : Text) (milliseconds : Number) (details : Fields) : Event :=
  ⟨.info, "performance_metric", Fields.update
    [("operation", .text operation), ("duration_ms", (rounded milliseconds).toValue)] details⟩

def check (operation : Text) (duration : Value) : Except Failure Number :=
  if operation.isEmpty then .error .emptyOperation
  else
    match duration.toNumber? with
    | none => .error .durationNotNumber
    | some d => if d < .int 0 then .error .negativeDuration else .ok d

end Measurement

namespace Service

def logMeasurement (s : Service) (name operation : Text) (duration : Value) (details : Fields)
    (time : Text) : Except Failure Text × Service :=
  match Measurement.check operation duration with
  | .error f => (.error f, s)
  | .ok d => s.log name (Measurement.event operation d details) time

def logProblem (s : Service) (name : Text) (p : Problem) (context : Fields) (trace : Bool)
    (time : Text) : Except Failure Text × Service :=
  s.log name (p.event context trace) time

end Service

end Literate.Log
