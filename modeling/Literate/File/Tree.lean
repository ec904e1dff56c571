import Literate.File.Encoding
import Literate.File.Path
import Literate.Text.Quoted
import Literate.Value.Basic

namespace Literate

inductive PathProblem where
  | notFound
  | notDirectory
  | isDirectory
  | denied
  | other (reason : Text)
  /-- Nothing that the file system has found. -/
  | foreign (kind message : Text)
deriving DecidableEq

/-- A failure of an operation on a path, with the path as it was given. -/
structure PathFault where
  problem : PathProblem
  path : Text
deriving DecidableEq

namespace PathFault

def kind (f : PathFault) : Text :=
  match f.problem with
  | .notFound => "FileNotFoundError"
  | .notDirectory => "NotADirectoryError"
  | .isDirectory => "IsADirectoryError"
  | .denied => "PermissionError"
  | .other _ => "OSError"
  | .foreign kind _ => kind

def message (f : PathFault) : Text :=
  let about (reason : Text) := reason ++ ": " ++ Text.quote f.path
  match f.problem with
  | .notFound => about "[Errno 2] No such file or directory"
  | .notDirectory => about "[Errno 20] Not a directory"
  | .isDirectory => about "[Errno 21] Is a directory"
  | .denied => about "[Errno 13] Permission denied"
  | .other reason => about reason
  | .foreign _ message => message

def ofSystem (f : PathFault) : Bool :=
  match f.problem with
  | .foreign _ _ => false
  | _ => true

end PathFault

/-- A path with a zero character is refused before anything is looked for. -/
def Path.refusal? (p : Path) : Option PathFault :=
  if '\x00' ∈ p.toText then some ⟨.foreign "ValueError" "embedded null byte", p.toText⟩ else none

inductive Node where
  | file (bytes : Bytes) (modified : Number)
  | folder (modified : Number)

/-- Nodes by their absolute location; the root is a folder without an entry. -/
structure Tree where
  entries : List (List Text × Node)

namespace Tree

def empty : Tree := ⟨[]⟩

def get? (t : Tree) (place : List Text) : Option Node :=
  if place = [] then some (.folder (.int 0)) else t.entries.lookup place

def put (t : Tree) (place : List Text) (n : Node) : Tree :=
  if t.entries.any (·.1 == place) then
    ⟨t.entries.map fun e => if e.1 = place then (place, n) else e⟩
  else ⟨t.entries ++ [(place, n)]⟩

def remove (t : Tree) (place : List Text) : Tree :=
  ⟨t.entries.filter fun e => !place.isPrefixOf e.1⟩

/-- A folder, together with the missing ones above it; `passed` is the part already seen to. -/
def makeFolders (t : Tree) (now : Number) (passed : List Text) : List Text → Tree
  | [] => t
  | p :: ps =>
    let here := passed ++ [p]
    let t := match t.get? here with
      | some (.folder _) => t
      | _ => t.put here (.folder now)
    makeFolders t now here ps

def isFolder (t : Tree) (place : List Text) : Bool :=
  match t.get? place with
  | some (.folder _) => true
  | _ => false

/-- Follows components from a folder: every one but the last has to lead to a folder. The result is
the location that the last one names, with the folder that holds it. -/
def walk (t : Tree) (here : List Text) : List Text → Except PathProblem (List Text)
  | [] => .ok here
  | p :: ps =>
    if t.isFolder here then walk t (if p = ['.', '.'] then here.dropLast else here ++ [p]) ps
    else if (t.get? here).isSome then .error .notDirectory
    else .error .notFound

/-- The location that a path names, which need not exist. -/
def locate (t : Tree) (cwd : List Text) (p : Path) : Except PathFault (List Text) :=
  let start := if p.slashes = 0 then cwd else []
  (t.walk start p.parts).mapError fun problem => ⟨problem, p.toText⟩

def node (t : Tree) (cwd : List Text) (p : Path) : Except PathFault Node := do
  let place ← t.locate cwd p
  match t.get? place with
  | some n => .ok n
  | none => .error ⟨.notFound, p.toText⟩

def read (t : Tree) (cwd : List Text) (p : Path) : Except PathFault Bytes := do
  match ← t.node cwd p with
  | .file bytes _ => .ok bytes
  | .folder _ => .error ⟨.isDirectory, p.toText⟩

def write (t : Tree) (cwd : List Text) (p : Path) (bytes : Bytes) (now : Number) :
    Except PathFault Tree := do
  let place ← t.locate cwd p
  match t.get? place with
  | some (.folder _) => .error ⟨.isDirectory, p.toText⟩
  | _ => .ok (t.put place (.file bytes now))

def modified (t : Tree) (cwd : List Text) (p : Path) : Except PathFault Number := do
  match ← t.node cwd p with
  | .file _ m => .ok m
  | .folder m => .ok m

def hasFile (t : Tree) (cwd : List Text) (p : Path) : Bool :=
  match t.node cwd p with
  | .ok (.file _ _) => true
  | _ => false

def hasFolder (t : Tree) (cwd : List Text) (p : Path) : Bool :=
  match t.node cwd p with
  | .ok (.folder _) => true
  | _ => false

end Tree

end Literate
