import Literate.Command.Arguments
import Literate.Host.Workspace
import Literate.Production.Processing
import Literate.Settings.Sources
import Literate.Watch.Loop

namespace Literate.Command

/-- What the arguments, the settings and the logging service come to. -/
structure Plan where
  arguments : Arguments
  settings : Settings

/-- How the program ends before any document is looked at. -/
inductive Early where
  /-- Text for the user, and the exit status. -/
  | output (text : Text)
  | usage (message : Text)
  | failed (f : Fault)

def Refusal.early : Refusal → Early
  | help => .output helpText
  | version => .output versionText
  | wrong message => .usage message

/-- Takes the arguments, then the settings, and configures the logging service unless it is
configured already. -/
def prepare (arguments : List Text) (environment : List (Text × Text))
    (file : Except Fault (Option Text)) (service : Log.Service) :
    Except Early (Plan × Log.Service) :=
  match parse arguments with
  | .error r => .error r.early
  | .ok a =>
    match file.bind fun text => (Settings.load [] environment text).mapError .invalid with
    | .error f => .error (.failed f)
    | .ok settings =>
      if service.configured then .ok (⟨a, settings⟩, service)
      else
        match service.configureFrom a.logLevel a.logFormat (.ok settings) with
        | (.ok _, configured) => .ok (⟨a, settings⟩, configured)
        | (.error f, _) => .error (.usage f.message)

/-- The lines that the notices of a run amount to on a logging service, at one moment. -/
def noticeText (service : Log.Service) (time : Text) : Notice → Text
  | .event e => (service.write e time).toOption.getD []
  | .line s => s

/-- Without a choice among the outputs all of them are wanted. -/
def outputOptions (a : Arguments) (cwd : Path) : OutputOptions :=
  let all := !(a.html || a.markdown || a.code)
  { code := a.code || all
    html := a.html || all
    markdown := a.markdown || all
    annotate := a.annotate
    codeFolder := (a.codeDir.map Path.ofText).getD cwd
    docsFolder := (a.docsDir.map Path.ofText).getD cwd
    stylesheet := a.css }

variable {n : Type → Type} [Monad n] [Host n]

def assignmentsFile : Path := ⟨0, [".env"]⟩

def readAssignments : ExceptT Fault n (Option Text) := do
  match ← ExceptT.lift (Host.isFile assignmentsFile) with
  | .error f => throw (.unreachable f)
  | .ok false => return none
  | .ok true =>
    match ← ExceptT.lift (Host.readFile assignmentsFile) with
    | .error f => throw (.unreachable f)
    | .ok bytes =>
      match Encoding.utf8.decode bytes with
      | .ok s => return some s
      | .error f => throw (.undecodable f)

def start (arguments : List Text) (environment : List (Text × Text)) (service : Log.Service) :
    n (Except Early (Plan × Log.Service)) := do
  let file ← (readAssignments : ExceptT Fault n (Option Text)).run
  return prepare arguments environment file service

def message (r : Report) : Text := r.message.toText

def logReport (r : Report) (context : Fields) : n Unit := do
  let id ← Host.freshId
  Host.record ((Log.Problem.ofReport r id).event context false)

def processedEvent (source : Path) (written : List Path) : Event :=
  ⟨.info, "document_processed",
    [("file_path", .text source.toText),
     ("outputs", .list (written.map fun p => .text p.toText))]⟩

/-- Processes the documents one after the other; a document that fails does not keep the others from
being processed. The result tells whether none failed. -/
def batch (lib : Libraries) (settings : Settings) (options : OutputOptions) :
    List Path → ExceptT Fault n Bool
  | [] => pure true
  | source :: rest => do
    match ← ExceptT.lift (Processing.file lib settings options source).run with
    | .ok written =>
      ExceptT.lift (Host.record (processedEvent source written))
      batch lib settings options rest
    | .error f =>
      match f.report? with
      | none => throw f
      | some r =>
        ExceptT.lift (logReport r [("file_path", .text source.toText)])
        ExceptT.lift (Host.say
          (programName ++ ": " ++ source.toText ++ ": " ++ message r ++ "\n"))
        let _ ← batch lib settings options rest
        return false

/-- Processes a document of a watch. Only a source that cannot be read, or a failure without report,
stops the watch. -/
def regenerate (lib : Libraries) (settings : Settings) (options : OutputOptions) :
    Watcher.Callback n :=
  fun source => do
    match ← ExceptT.lift (Processing.file lib settings options source).run with
    | .ok _ => pure ()
    | .error f =>
      match f.report? with
      | none => throw (.failed f)
      | some r =>
        if r.kind = .sourceUnavailable then throw (.failed f)
        else ExceptT.lift (logReport r [("file_path", .text source.toText)])

def firstPass (callback : Watcher.Callback n) : List Path → ExceptT Stop n Unit
  | [] => pure ()
  | p :: ps => do
    callback p
    firstPass callback ps

/-- Processes every document and then those that change, until the watch ends. -/
def watchSession [Interruptible n] (w : Watcher) (callback : Watcher.Callback n)
    (repetition : Watcher.Repetition n) : ExceptT Fault n Unit := do
  match ← ExceptT.lift (firstPass callback w.paths).run with
  | .error (.failed f) => throw f
  | .error .interrupted => throw (.outside "KeyboardInterrupt" [])
  | .ok _ =>
    let _ ← w.runBy repetition callback none

/-- A watch of documents. What stops it is logged if it has a report. -/
def watch [Interruptible n] (lib : Libraries) (settings : Settings) (options : OutputOptions)
    (sources : List Path) (repetition : Watcher.Repetition n) : ExceptT Fault n Nat := do
  let w ← ExceptT.mk (pure
    (Watcher.make sources (.float settings.watchInterval) (.float settings.recencyWindow)))
  match ← ExceptT.lift (watchSession w (regenerate lib settings options) repetition).run with
  | .ok _ => return 0
  | .error f =>
    match f.report? with
    | some r =>
      ExceptT.lift (logReport r [])
      return 1
    | none => throw f

def missing : List Path → ExceptT Fault n (List Path)
  | [] => pure []
  | p :: ps => do
    match ← ExceptT.lift (Host.isFile p) with
    | .error f => throw (.unreachable f)
    | .ok here =>
      let rest ← missing ps
      return if here then rest else p :: rest

def missingLine (paths : List Path) : Text :=
  errorLine ("no such file: " ++ Text.join ", " (paths.map Path.toText))

/-- Carries a plan out and gives the exit status: one for a document that failed, two for a folder
or a file that is not there. -/
def execute [Interruptible n] (lib : Libraries) (plan : Plan) (repetition : Watcher.Repetition n) :
    ExceptT Fault n Nat := do
  let cwd ← ExceptT.lift Host.workingFolder
  let options := outputOptions plan.arguments ⟨1, cwd⟩
  match ← ExceptT.lift (OutputOptions.validate options).run with
  | .error f =>
    match f.report? with
    | none => throw f
    | some r =>
      ExceptT.lift (logReport r [])
      ExceptT.lift (Host.say (errorLine (message r)))
      return 2
  | .ok _ =>
    let sources := plan.arguments.files.map Path.ofText
    let absent ← missing sources
    if !absent.isEmpty then
      ExceptT.lift (Host.say (missingLine absent))
      return 2
    else if plan.arguments.watch then watch lib plan.settings options sources repetition
    else
      let fine ← batch lib plan.settings options sources
      return if fine then 0 else 1

end Literate.Command
