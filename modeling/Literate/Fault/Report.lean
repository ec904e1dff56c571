import Literate.Value.Display

namespace Literate

inductive Report.Kind where
  | general
  | validation
  | processing
  | circularReference
  | documentParse
  | sourceUnavailable
  | outputDirectory
  | outputWrite
deriving DecidableEq

/-- A failure as it is told: by its kind and a message. -/
structure Mishap where
  kind : Text
  message : Text
deriving DecidableEq

structure Report where
  kind : Report.Kind
  message : Value
  code : Value
  details : Value
  correlation : Option Value
  /-- The failure that the report was made from. -/
  origin : Option Mishap
  /-- What only reports of this kind tell. -/
  attributes : Fields

namespace Report

namespace Kind

def all : List Kind :=
  [general, validation, processing, circularReference, documentParse, sourceUnavailable,
   outputDirectory, outputWrite]

def name : Kind → Text
  | general => "LitweaveError"
  | validation => "ValidationError"
  | processing => "ProcessingError"
  | circularReference => "CircularReferenceError"
  | documentParse => "DocumentParseError"
  | sourceUnavailable => "SourceUnavailableError"
  | outputDirectory => "OutputDirectoryError"
  | outputWrite => "OutputWriteError"

def ofName? (s : Text) : Option Kind := all.find? fun k => k.name == s

/-- The kind itself and the more general ones, nearest first. -/
def ancestry : Kind → List Kind
  | general => [general]
  | circularReference => [circularReference, processing, general]
  | k => [k, general]

def code : Kind → Text
  | general => "ERR_UNKNOWN"
  | validation => "VAL_001"
  | processing => "PROC_001"
  | circularReference => "PROC_010"
  | documentParse => "PARSE_001"
  | sourceUnavailable => "IO_001"
  | outputDirectory => "IO_002"
  | outputWrite => "IO_003"

/-- A source that cannot be read now may be readable soon; nothing else mends itself. -/
def transient (k : Kind) : Bool := k == sourceUnavailable

/-- The values that a report of this kind has to be given, and those it may be given besides the
ones that every kind takes. -/
def parameters : Kind → List String × List String
  | general | validation | processing | sourceUnavailable => (["message"], [])
  | circularReference => (["name", "cycle"], ["message"])
  | documentParse => (["file_path", "line", "reason"], [])
  | outputDirectory => (["path"], [])
  | outputWrite => (["path", "reason"], [])

def commonParameters : List String := ["error_code", "details", "correlation_id", "original"]

end Kind

def str (r : Report) : Text := r.message.toText

def listOf? : Value → Option (List Value)
  | .list vs => some vs
  | .text s => some (s.map fun c => .text [c])
  | .object fields => some (fields.map fun f => .text f.1)
  | _ => none

def textOf? : Value → Option Text
  | .text s => some s
  | _ => none

def fieldsOf? : Value → Option Fields
  | .object fields => some fields
  | _ => none

def cycleMessage (name : Text) (path : List Text) : Text :=
  "Circular reference naming '" ++ name ++ "', cycle path: " ++ Text.join " -> " path

def headerMessage (path line reason : Text) : Text := path ++ ":" ++ line ++ ": " ++ reason

def directoryMessage (path : Text) : Text := "Output directory does not exist: " ++ path

def writeMessage (path reason : Text) : Text := "Cannot write " ++ path ++ ": " ++ reason

/-- The message and the attributes that the given values determine. -/
def contents? (k : Kind) (given : Fields) : Option (Value × Fields) := do
  let get (name : String) := Fields.get? given name
  match k with
  | .circularReference =>
    let name ← get "name"
    let path ← listOf? (← get "cycle")
    let attributes : Fields := [("name", name), ("cycle", .list path)]
    match get "message" with
    | none | some .null =>
      return (.text (cycleMessage name.toText (← path.mapM textOf?)), attributes)
    | some m => return (m, attributes)
  | .documentParse =>
    let path ← get "file_path"
    let line ← get "line"
    let reason ← get "reason"
    return (.text (headerMessage path.toText line.toText reason.toText),
      [("file_path", path), ("line", line)])
  | .outputDirectory =>
    let path ← get "path"
    return (.text (directoryMessage path.toText), [("path", path)])
  | .outputWrite =>
    let path ← get "path"
    let reason ← get "reason"
    return (.text (writeMessage path.toText reason.toText), [("path", path)])
  | _ => return (← get "message", [])

/-- The details given, with the attributes written over them; those have to be a record then. -/
def detailsWith? (given : Option Value) (attributes : Fields) : Option Value :=
  match given with
  | none => some (.object attributes)
  | some v =>
    if attributes.isEmpty then some (if v.isTruthy then v else .object [])
    else (fieldsOf? v).map fun fields => .object (Fields.update fields attributes)

def originOf? : Value → Option Mishap
  | .list [.text kind, .text message] => some ⟨kind, message⟩
  | _ => none

/-- A report made from given values; none when one is missing, superfluous or of a wrong shape. -/
def ofGiven? (k : Kind) (given : Fields) : Option Report := do
  let allowed := k.parameters.1 ++ k.parameters.2 ++ Kind.commonParameters
  guard (given.all fun f => allowed.any fun a => a.toList == f.1)
  let (message, attributes) ← contents? k given
  let details ← detailsWith? (Fields.get? given "details") attributes
  return {
    kind := k
    message
    code := (Fields.get? given "error_code").getD (.text k.code)
    details
    correlation := (Fields.get? given "correlation_id").filter Value.isTruthy
    origin := (Fields.get? given "original").bind originOf?
    attributes }

/-- A report as a record; `fresh` stands for an identifier where none was given. -/
def toValue (fresh : Text) (r : Report) : Value :=
  .object [("error", .text r.kind.name), ("message", r.message), ("error_code", r.code),
    ("details", r.details), ("correlation_id", r.correlation.getD (.text fresh)),
    ("original_error", match r.origin with
      | some o => .text o.message
      | none => .null)]

end Report

namespace Mishap

def systemKinds : List (Int × String) :=
  [(1, "PermissionError"), (2, "FileNotFoundError"), (3, "ProcessLookupError"),
   (4, "InterruptedError"), (10, "ChildProcessError"), (11, "BlockingIOError"),
   (13, "PermissionError"), (17, "FileExistsError"), (20, "NotADirectoryError"),
   (21, "IsADirectoryError"), (32, "BrokenPipeError"), (103, "ConnectionAbortedError"),
   (104, "ConnectionResetError"), (110, "TimeoutError"), (111, "ConnectionRefusedError")]

/-- System failures are told by a number and a text; all others show their only argument, or the
group of all of them. -/
def ofArguments (kind : Text) (arguments : List Value) : Mishap :=
  match arguments with
  | [] => ⟨kind, []⟩
  | [v] => ⟨kind, if kind = ("KeyError" : Text) then v.display else v.toText⟩
  | number :: text :: _ =>
    if kind = ("OSError" : Text) then
      let special := match number with
        | .int n => (systemKinds.lookup n).map String.toList
        | _ => none
      ⟨special.getD kind, "[Errno " ++ number.toText ++ "] " ++ text.toText⟩
    else ⟨kind, Value.displayGroup arguments⟩

end Mishap

end Literate
