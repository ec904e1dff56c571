import Literate.Host.Basic

namespace Literate

/-- What someone else does to the file of a path. -/
inductive Change where
  | file (bytes : Bytes) (modified : Option Number)
  | folder (modified : Option Number)
  | gone

abbrev Changes := List (Path × Change)

/-- A line shown to the user, or an event. -/
inductive Notice where
  | event (e : Event)
  | line (s : Text)

/-- What goes wrong with files and waiting for reasons that a tree does not show. A file that cannot
be written may be left with other bytes than it had. -/
structure Obstacles where
  reading : Path → Option PathFault := fun _ => none
  writing : Path → Option (PathFault × Option Bytes) := fun _ => none
  looking : Path → Option PathFault := fun _ => none
  resolving : Path → Option PathFault := fun _ => none
  napping : Float → Option Mishap := fun _ => none

structure Workspace where
  tree : Tree
  cwd : List Text
  clock : Number
  /-- The time given to files that are written and to folders that are made on the way. -/
  writeTime : Number
  logging : Bool
  /-- What goes wrong after so many files have been read or written. -/
  obstacles : Nat → Obstacles := fun _ => {}
  /-- How often a file has been read or written. -/
  uses : Nat := 0
  /-- What happens during the naps, by their numbers. -/
  napScript : List (Nat × Changes)
  /-- What happens during the pauses, one after the other; then the run is interrupted. -/
  pauseScript : List Changes
  freshId : Text
  notices : List Notice
  naps : List Float
  pauses : List Number
  /-- The files handed on. -/
  calls : List Path

namespace Workspace

/-- A time as it is kept with a file: in whole nanoseconds, rounded down. -/
def fileTime (t : Number) : Number :=
  match t with
  | .int i => .float (Float.ofInt i)
  | .float x =>
    let seconds := x.floor
    .float (seconds + 1e-9 * ((x - seconds) * 1e9).floor)

def applyChange (w : Workspace) (p : Path) (c : Change) : Workspace :=
  let place := p.resolve w.cwd
  let time (given : Option Number) := fileTime (given.getD w.clock)
  let cleared := w.tree.remove place
  match c with
  | .gone => { w with tree := cleared }
  | .folder m =>
    let folders := cleared.makeFolders w.writeTime [] place.dropLast
    { w with tree := folders.put place (.folder (time m)) }
  | .file bytes m =>
    let folders := cleared.makeFolders w.writeTime [] place.dropLast
    { w with tree := folders.put place (.file bytes (time m)) }

def apply (w : Workspace) (changes : Changes) : Workspace :=
  changes.foldl (fun w c => w.applyChange c.1 c.2) w

def events (w : Workspace) : List Event :=
  w.notices.filterMap fun x =>
    match x with
    | .event e => some e
    | .line _ => none

def noticed (w : Workspace) (x : Notice) : Workspace := { w with notices := w.notices ++ [x] }

/-- A nap, during which others may change files. -/
def napped (w : Workspace) (seconds : Float) : Workspace :=
  let w := { w with naps := w.naps ++ [seconds] }
  w.apply ((w.napScript.lookup w.naps.length).getD [])

/-- A pause takes its time and then sees the next changes; without any it is interrupted. -/
def paused (w : Workspace) (seconds : Number) : Bool × Workspace :=
  let w := { w with pauses := w.pauses ++ [seconds], clock := w.clock + seconds }
  match w.pauseScript with
  | [] => (false, w)
  | changes :: rest => (true, ({ w with pauseScript := rest }).apply changes)

def present (w : Workspace) : Obstacles := w.obstacles w.uses

def used (w : Workspace) : Workspace := { w with uses := w.uses + 1 }

def found (w : Workspace) (p : Path) : Except PathFault Bytes :=
  match p.refusal? <|> w.present.reading p with
  | some f => .error f
  | none => w.tree.read w.cwd p

/-- Writes the bytes, or what a failure leaves of them. -/
def written (w : Workspace) (p : Path) (bytes : Bytes) : Except PathFault Unit × Workspace :=
  let store (b : Bytes) := w.tree.write w.cwd p b w.writeTime
  match p.refusal?, w.present.writing p with
  | some f, _ => (.error f, w.used)
  | none, some (f, none) => (.error f, w.used)
  | none, some (f, some left) =>
    match store left with
    | .ok tree => (.error f, { w.used with tree })
    | .error f => (.error f, w.used)
  | none, none =>
    match store bytes with
    | .ok tree => (.ok (), { w.used with tree })
    | .error f => (.error f, w.used)

/-- What a path is found to lead to; one that is refused leads to nothing. -/
def seen (w : Workspace) (p : Path) (leads : Tree → List Text → Path → Bool) :
    Except PathFault Bool :=
  match p.refusal?, w.present.looking p with
  | some _, _ => .ok false
  | none, some f => .error f
  | none, none => .ok (leads w.tree w.cwd p)

def lastChange (w : Workspace) (p : Path) : Except PathFault Number :=
  match p.refusal? <|> w.present.looking p with
  | some f => .error f
  | none => w.tree.modified w.cwd p

def resolved (w : Workspace) (p : Path) : Except PathFault (List Text) :=
  match p.refusal? <|> w.present.resolving p with
  | some f => .error f
  | none => .ok (p.resolve w.cwd)

def rested (w : Workspace) (seconds : Float) : Except Mishap Unit × Workspace :=
  match w.present.napping seconds with
  | some m => (.error m, w)
  | none => (.ok (), w.napped seconds)

instance : Host (StateM Workspace) where
  readFile p := fun w => (w.found p, w.used)
  writeFile p bytes := fun w => w.written p bytes
  isFile p := fun w => (w.seen p Tree.hasFile, w)
  isFolder p := fun w => (w.seen p Tree.hasFolder, w)
  modified p := fun w => (w.lastChange p, w)
  resolve p := fun w => (w.resolved p, w)
  workingFolder := fun w => (w.cwd, w)
  now := fun w => (w.clock, w)
  stopwatch := fun w => (0.0, w)
  nap seconds := fun w => w.rested seconds
  pause seconds := fun w => w.paused seconds
  record e := fun w => ((), w.noticed (.event e))
  logging := fun w => (w.logging, w)
  say s := fun w => ((), w.noticed (.line s))
  freshId := fun w => (w.freshId, w)

end Workspace

end Literate
