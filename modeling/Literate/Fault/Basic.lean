import Literate.Fault.Report
import Literate.File.Tree
import Literate.Validation.Issue

namespace Literate

inductive Fault where
  /-- Something other than text where text is needed. -/
  | notText
  | noFileName
  /-- A header with a blank name, in a file named by any value. -/
  | blankHeader (file : Value) (line : Nat)
  | cycle (key : Text) (path : List Text)
  | unknownChunk (kind : Text)
  | unknownPart (kind : Text)
  | invalid (issues : List Issue)
  | unreachable (cause : PathFault)
  | undecodable (cause : DecodeFault)
  /-- A source whose bytes are no text in the configured encoding. -/
  | garbledSource (source encoding : Text) (cause : DecodeFault)
  | unreadableSource (source : Text) (attempts : Nat) (cause : PathFault)
  | overwritesSource (source : Text)
  | noDirectory (path : Text)
  | unwritable (source path : Text) (cause : PathFault)
  | unencodable (source path : Text) (cause : EncodeFault)
  /-- A quantity that has to be positive. -/
  | notPositive (quantity : Text) (given : Number)
  /-- A failure of something outside, known by its kind and message. -/
  | outside (kind message : Text)

namespace Fault

def ofMishap (m : Mishap) : Fault := outside m.kind m.message

def pathOrigin (f : PathFault) : Mishap := ⟨f.kind, f.message⟩

def validation (code message : Text) (details : Fields) (origin : Option Mishap) :
    Report :=
  ⟨.validation, .text message, .text code, .object details, none, origin, []⟩

def ofKind (k : Report.Kind) (message : Text) (details attributes : Fields)
    (origin : Option Mishap) : Report :=
  ⟨k, .text message, .text k.code, .object details, none, origin, attributes⟩

def noDirectoryReport (path : Text) : Report :=
  let place : Fields := [("path", .text path)]
  ofKind .outputDirectory (Report.directoryMessage path) place place none

def writeReport (source path reason : Text) (origin : Mishap) : Report :=
  ofKind .outputWrite (Report.writeMessage path reason)
    [("file_path", .text source), ("path", .text path)] [("path", .text path)] (some origin)

/-- The report of a failure that the program foresees; other failures have none. -/
def report? : Fault → Option Report
  | notText => some (validation "VAL_002" "text must be a string" [] none)
  | noFileName => some (validation "VAL_001" "file_path cannot be empty" [] none)
  | blankHeader file line =>
    let attributes : Fields := [("file_path", file), ("line", .int line)]
    some (ofKind .documentParse
      (Report.headerMessage file.toText (Text.ofNat line) "definition has an empty name")
      attributes attributes none)
  | cycle key path =>
    let attributes : Fields :=
      [("name", .text key), ("cycle", .list (path.map Value.text))]
    some (ofKind .circularReference (Report.cycleMessage key path) attributes attributes none)
  | garbledSource source encoding cause =>
    some (validation "VAL_004" (source ++ " is not valid " ++ encoding ++ " text: " ++ cause.reason)
      [("file_path", .text source), ("encoding", .text encoding), ("position", .int cause.start)]
      (some ⟨"UnicodeDecodeError", cause.message⟩))
  | unreadableSource source attempts cause =>
    some (ofKind .sourceUnavailable
      ("Cannot read " ++ source ++ " after " ++ Text.ofNat attempts ++ " attempts: " ++
        cause.message)
      [("file_path", .text source), ("attempts", .int attempts)] [] (some (pathOrigin cause)))
  | overwritesSource source =>
    some (validation "VAL_003" ("Output would overwrite the source document " ++ source)
      [("file_path", .text source)] none)
  | noDirectory path => some (noDirectoryReport path)
  | unwritable source path cause =>
    some (writeReport source path cause.message (pathOrigin cause))
  | unencodable source path cause =>
    some (writeReport source path cause.message ⟨"UnicodeEncodeError", cause.message⟩)
  | _ => none

/-- The kind and the message of a failure without report or issues. -/
def plain : Fault → Text × Text
  | unknownChunk kind => ("TypeError", "Unknown chunk type: " ++ kind)
  | unknownPart kind => ("TypeError", "Unknown part type: " ++ kind)
  | unreachable cause => (cause.kind, cause.message)
  | undecodable cause => ("UnicodeDecodeError", cause.message)
  | notPositive quantity given =>
    ("ValueError", quantity ++ " must be > 0, got " ++ given.toValue.toText)
  | outside kind message => (kind, message)
  | _ => ([], [])

end Fault

end Literate
