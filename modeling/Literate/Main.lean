import Literate.Command.Run
import Literate.Log.Event
import Std.Time.DateTime.Timestamp

namespace Literate.Machine

/-- Actions that log through a configured service. -/
abbrev Action := ReaderT Log.Service IO

def problemOf : IO.Error → PathProblem
  | .noFileOrDirectory _ _ _ => .notFound
  | .permissionDenied _ _ _ => .denied
  | .inappropriateType _ 20 _ => .notDirectory
  | .inappropriateType _ 21 _ => .isDirectory
  | e => .other (toString e)

/-- The text of a path, taken from the folder that the program was started in. -/
def attempt {α : Type} (p : Path) (act : String → IO α) : IO (Except PathFault α) := do
  if let some f := p.refusal? then return .error f
  try
    return .ok (← act (String.ofList p.toText))
  catch e => return .error ⟨problemOf e, p.toText⟩

/-- Seconds and nanoseconds since the start of 1970. -/
def moment : IO (Int × Int) := do
  let now ← Std.Time.Timestamp.now
  return (now.val.second.val, now.val.nano.val)

def secondsOf (whole nanoseconds : Int) : Float :=
  Float.ofInt whole + 1e-9 * Float.ofInt nanoseconds

def timeText : IO Text := do
  let (seconds, nanoseconds) ← moment
  return Clock.text (seconds * 1000000 + nanoseconds / 1000)

/-- Random digits, with the marks of the version and the variant in their places. -/
def randomId : IO Text := do
  let digits ← (List.range 32).mapM fun i => do
    let d ← IO.rand 0 15
    let d := if i = 12 then 4 else if i = 16 then 8 + d % 4 else d
    return Text.ofNatPadded 16 1 d
  let s := digits.flatten
  return Text.join ['-']
    [s.take 8, (s.drop 8).take 4, (s.drop 12).take 4, (s.drop 16).take 4, s.drop 20]

def isFolder (p : Path) : IO Bool := do
  ((← IO.currentDir) / String.ofList p.toText).isDir

def pauseFor (seconds : Float) : IO Unit := IO.sleep (seconds * 1000.0).toUInt32

def showText (s : Text) : IO Unit := do
  IO.eprint (String.ofList s)
  (← IO.getStderr).flush

instance : Host Action where
  readFile p := do
    if ← isFolder p then return .error ⟨.isDirectory, p.toText⟩
    else
      let r ← attempt p fun name => IO.FS.readBinFile name
      return r.map fun bytes => bytes.toList
  writeFile p bytes := do
    if ← isFolder p then return .error ⟨.isDirectory, p.toText⟩
    else attempt p fun name => IO.FS.writeBinFile name (ByteArray.mk bytes.toArray)
  isFile p := do
    let here := (← IO.currentDir) / String.ofList p.toText
    return .ok ((← here.pathExists) && !(← here.isDir))
  isFolder p := return .ok (← isFolder p)
  modified p := do
    let r ← attempt p fun name => do
      ((← IO.currentDir) / name).metadata
    return r.map fun m =>
      .float (secondsOf m.modified.sec m.modified.nsec.toNat)
  resolve p := attempt p fun _ => do
    return p.resolve (Path.ofText (← IO.currentDir).toString.toList).parts
  workingFolder := do
    return (Path.ofText (← IO.currentDir).toString.toList).parts
  now := do
    let (seconds, nanoseconds) ← moment
    return .float (secondsOf seconds nanoseconds)
  stopwatch := return Float.ofNat (← IO.monoNanosNow) / 1e6
  nap seconds := do
    if seconds.isNaN then return .error ⟨"ValueError", "Invalid value NaN (not a number)"⟩
    pauseFor seconds
    return .ok ()
  pause seconds := do
    pauseFor seconds.toFloat
    return true
  record e := do
    let line := (← read).write e (← timeText)
    showText (line.toOption.getD [])
  logging := return (← read).configured
  say s := showText s
  freshId := randomId

/-- An interruption ends the program. -/
instance : Interruptible Action where
  attempt x := some <$> x

/-- Goes on until the step finishes. -/
partial def forever {α : Type} [Inhabited α] (finished? : α → Option α)
    (next : Nat → ExceptT Fault Action (α × Nat)) (polls : Nat) : ExceptT Fault Action α := do
  let (a, polls) ← next polls
  match finished? a with
  | some a => return a
  | none => forever finished? next polls

/-- Rounds of a watch without bound. -/
def rounds : Watcher.Repetition Action := fun step polls =>
  have : Inhabited Watcher.Progress := ⟨.finished 0⟩
  forever
    (fun p => match p with
      | .finished k => some (.finished k)
      | .going _ => none)
    (fun polls => do
      let p ← step polls
      return (p, match p with
        | .finished k => k
        | .going k => k))
    polls

/-- The variables that settings may be given in. -/
def environment : IO (List (Text × Text)) := do
  let names := Setting.all.map fun k => Settings.environmentPrefix ++ k.name
  let found ← names.mapM fun name => do
    let upper := String.ofList (name.map Char.toUpper)
    return (← IO.getEnv upper).map fun v => (name, v.toList)
  return found.filterMap id

def faultText (f : Fault) : Text :=
  match f.report? with
  | some r => Command.message r
  | none =>
    match f with
    | .invalid issues => Text.join ['\n'] (issues.map fun i => i.cause.message)
    | f => f.plain.1 ++ ": " ++ f.plain.2

def run (arguments : List String) : IO UInt32 := do
  let given := arguments.map String.toList
  let started ←
    (Command.start given (← environment) Log.Service.initial : Action _).run Log.Service.initial
  match started with
  | .error (.output s) =>
    IO.print (String.ofList s)
    return 0
  | .error (.usage m) =>
    showText (Command.usageError m)
    return 2
  | .error (.failed f) =>
    showText (faultText f ++ "\n")
    return 1
  | .ok (plan, service) =>
    match ← ((Command.execute .bare plan rounds : ExceptT Fault Action Nat).run).run service with
    | .ok status => return status.toUInt32
    | .error f =>
      showText (faultText f ++ "\n")
      return 1

end Literate.Machine

def main (arguments : List String) : IO UInt32 := Literate.Machine.run arguments
