import Literate.Host.Basic

namespace Literate

/-- What a watch asks of the machine that it runs on, with times of type `τ`. -/
class Observer (τ : outParam Type) (n : Type → Type) where
  /-- The time of the last change. -/
  modified : Path → n (Except PathFault τ)
  now : n τ
  /-- Waits for the next round; false when interrupted. -/
  pause : τ → n Bool
  record : Event → n Unit

instance {n : Type → Type} [Host n] : Observer Number n where
  modified := Host.modified
  now := Host.now
  pause := Host.pause
  record := Host.record

/-- How a run is stopped early: by the user, or by a failure. -/
inductive Stop where
  | interrupted
  | failed (f : Fault)

def isRecent {τ : Type} [Sub τ] [LT τ] [DecidableLT τ] (now modified window : τ) : Bool :=
  decide (now - modified < window)

structure Watcher (τ : Type := Number) where
  paths : List Path
  interval : τ
  window : τ

namespace Watcher

/-- Both times have to be positive. -/
def make (paths : List Path) (interval window : Number) : Except Fault Watcher :=
  if interval.isNotAboveZero then .error (.notPositive "interval" interval)
  else if window.isNotAboveZero then .error (.notPositive "recency_window" window)
  else .ok ⟨paths, interval, window⟩

variable {τ : Type} [Sub τ] [LT τ] [DecidableLT τ] {n : Type → Type} [Monad n] [Observer τ n]

def missingEvent (path : Path) : Event :=
  ⟨.warning, "watched_file_missing", [("file_path", .text path.toText)]⟩

def changedEvent (path : Path) : Event :=
  ⟨.info, "watched_file_changed", [("file_path", .text path.toText)]⟩

def startedEvent [Coe τ Value] (w : Watcher τ) : Event :=
  ⟨.info, "watch_started",
    [("files", .list (w.paths.map fun p => .text p.toText)), ("interval", w.interval)]⟩

def interruptedEvent (polls : Nat) : Event := ⟨.info, "watch_interrupted", [("polls", .int polls)]⟩

/-- The paths that changed within the window before `now`. A missing file is passed over; any other
trouble with a path is a failure. -/
def changedSince (w : Watcher τ) (now : τ) : List Path → ExceptT Fault n (List Path)
  | [] => pure []
  | p :: ps => do
    match ← ExceptT.lift (Observer.modified p) with
    | .ok m =>
      let rest ← changedSince w now ps
      return if isRecent now m w.window then p :: rest else rest
    | .error f =>
      if f.problem = .notFound then
        ExceptT.lift (Observer.record (missingEvent p))
        changedSince w now ps
      else throw (.unreachable f)

def changed (w : Watcher τ) : ExceptT Fault n (List Path) := do
  let now ← ExceptT.lift Observer.now
  changedSince w now w.paths

abbrev Callback (n : Type → Type) := Path → ExceptT Stop n Unit

def notify (callback : Callback n) : List Path → ExceptT Stop n Unit
  | [] => pure ()
  | p :: ps => do
    ExceptT.lift (Observer.record (changedEvent p))
    callback p
    notify callback ps

/-- Hands on the changed files, all of which are found before the first is handed on. -/
def poll (w : Watcher τ) (callback : Callback n) : ExceptT Stop n (List Path) := do
  let paths ← ExceptT.adapt Stop.failed w.changed
  notify callback paths
  return paths

/-- The number of polls so far, and whether there are more to come. -/
inductive Progress where
  | going (polls : Nat)
  | finished (polls : Nat)

def wants (limit : Option Int) (polls : Nat) : Bool :=
  match limit with
  | none => true
  | some m => decide ((polls : Int) < m)

/-- The end of a watch that is interrupted after so many polls. -/
def breakOff (polls : Nat) : ExceptT Fault n Progress := do
  ExceptT.lift (Observer.record (interruptedEvent polls))
  return .finished polls

/-- One poll and the pause after it, if another poll is to come. An interruption anywhere in them
ends the watch. -/
def round [Interruptible n] (w : Watcher τ) (callback : Callback n) (limit : Option Int)
    (polls : Nat) : ExceptT Fault n Progress := do
  if !wants limit polls then return .finished polls
  match ← ExceptT.lift (Interruptible.attempt (w.poll callback).run) with
  | none | some (.error .interrupted) => breakOff polls
  | some (.error (.failed f)) => throw f
  | some (.ok _) =>
    if wants limit (polls + 1) then
      match ← ExceptT.lift (Interruptible.attempt (Observer.pause w.interval)) with
      | some true => return .going (polls + 1)
      | none | some false => breakOff (polls + 1)
    else return .finished (polls + 1)

/-- A way to repeat a step that leads from a number of polls to the next. -/
abbrev Repetition (n : Type → Type) :=
  (Nat → ExceptT Fault n Progress) → Nat → ExceptT Fault n Progress

def repeatUpTo (bound : Nat) : Repetition n := fun step polls =>
  match bound with
  | 0 => return .going polls
  | bound + 1 => do
    match ← step polls with
    | .finished p => return .finished p
    | .going p => repeatUpTo bound step p

/-- Polls until the limit is reached or the watch is interrupted. -/
def runBy [Interruptible n] [Coe τ Value] (w : Watcher τ) (repetition : Repetition n)
    (callback : Callback n) (limit : Option Int) : ExceptT Fault n Progress := do
  ExceptT.lift (Observer.record w.startedEvent)
  repetition (w.round callback limit) 0

def run [Interruptible n] [Coe τ Value] (w : Watcher τ) (bound : Nat) (callback : Callback n)
    (limit : Option Int) : ExceptT Fault n Progress :=
  w.runBy (repeatUpTo bound) callback limit

end Watcher

end Literate
