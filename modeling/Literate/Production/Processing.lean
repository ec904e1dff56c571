import Literate.Log.Service
import Literate.Production.Outputs
import Literate.Production.Source

namespace Literate

variable {n : Type → Type} [Monad n] [Host n]

namespace OutputOptions

def checkFolder (p : Path) : ExceptT Fault n Unit := do
  match ← ExceptT.lift (Host.isFolder p) with
  | .ok true => pure ()
  | .ok false => throw (.noDirectory p.toText)
  | .error f => throw (.unreachable f)

/-- The folders of the wanted outputs have to exist. -/
def validate (o : OutputOptions) : ExceptT Fault n Unit := do
  if o.code then checkFolder o.codeFolder
  if o.html || o.markdown then checkFolder o.docsFolder

end OutputOptions

namespace Processing

def startedEvent (source : Path) : Event :=
  ⟨.info, "document_processing_started", [("file_path", .text source.toText)]⟩

def writtenEvent (path : Path) (size : Nat) : Event :=
  ⟨.debug, "output_written", [("path", .text path.toText), ("size", .int size)]⟩

def encode (lib : Libraries) (settings : Settings) (s : Text) :
    Except (CodecFault EncodeFault) Bytes :=
  match lib.codec settings.encoding with
  | .error m => .error (.otherwise m)
  | .ok codec => codec.encode s

/-- Writes one output. The file is opened before its bytes are known, and a text without bytes
leaves it empty. -/
def writeOutput (lib : Libraries) (settings : Settings) (source path : Path) (contents : Text) :
    ExceptT Fault n Unit := do
  let encoded := encode lib settings contents
  match ← ExceptT.lift (Host.writeFile path (encoded.toOption.getD [])) with
  | .error f =>
    if f.ofSystem then throw (.unwritable source.toText path.toText f) else throw (.unreachable f)
  | .ok _ =>
    match encoded with
    | .error (.place f) => throw (.unencodable source.toText path.toText f)
    | .error (.otherwise m) => throw (.ofMishap m)
    | .ok _ => ExceptT.lift (Host.record (writtenEvent path contents.length))

def writeAll (lib : Libraries) (settings : Settings) (source : Path) :
    Outputs → ExceptT Fault n Unit
  | [] => pure ()
  | (path, contents) :: rest => do
    writeOutput lib settings source path contents
    writeAll lib settings source rest

def placeOf (p : Path) : ExceptT Fault n (List Text) := do
  match ← ExceptT.lift (Host.resolve p) with
  | .ok place => return place
  | .error f => throw (.unreachable f)

def overwrites (source : Path) : Outputs → ExceptT Fault n Bool
  | [] => return false
  | (path, _) :: rest => do
    let place ← placeOf path
    if place = (← placeOf source) then return true else overwrites source rest

def finishedEvent (source : Path) (outputs : Nat) (milliseconds : Float) : Event :=
  Log.Measurement.event "process_file" (.float milliseconds)
    [("file_path", .text source.toText), ("outputs", .int outputs)]

/-- Processes a document and gives the paths that were written. -/
def file (lib : Libraries) (settings : Settings) (options : OutputOptions) (source : Path) :
    ExceptT Fault n (List Path) := do
  let start ← ExceptT.lift Host.stopwatch
  ExceptT.lift (Host.record (startedEvent source))
  let text ← Source.read lib settings source
  let outputs ← (Outputs.ofText lib settings options source text).run
  if ← overwrites source outputs then throw (.overwritesSource source.toText)
  writeAll lib settings source outputs
  let stop ← ExceptT.lift Host.stopwatch
  if ← ExceptT.lift Host.logging then
    ExceptT.lift (Host.record (finishedEvent source outputs.length (stop - start)))
  return outputs.map (·.1)

end Processing

end Literate
