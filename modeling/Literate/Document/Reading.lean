import Literate.Document.Basic
import Literate.Log.Trace

namespace Literate.Document

/-- A definition header is `<<`, a name and `>>=` between blanks; this gives what stands where the
name belongs, which may be blank. -/
def header? (line : Text) : Option Text := do
  let rest ← Text.afterPrefix? "<<" (Text.trim line)
  Text.beforeSuffix? ">>=" rest

/-- A line that ends a definition is `@` between blanks. -/
def isEnd (line : Text) : Bool := Text.trim line == ['@']

/-- A reference is a name between `<<` and `>>`, alone on its line but for spaces and tabs. -/
def reference? (line : Text) : Option (Name × Text) := do
  let indent := line.takeWhile Text.isIndentChar
  let core := Text.dropEndWhile Text.isIndentChar (line.dropWhile Text.isIndentChar)
  let rest ← Text.afterPrefix? "<<" core
  let inner ← Text.beforeSuffix? ">>" rest
  let target ← Name.ofText? (Text.trim inner)
  return (target, indent)

def bodyPart (line : Text) : Part :=
  match reference? line with
  | some (target, indent) => .reference target indent
  | none => .literal (line ++ ['\n'])

/-- The lines of a text; a final line end does not start another line. -/
def sourceLines (text : Text) : List Text :=
  let ls := Text.lines (Text.unixNewlines text)
  if ls.getLast? = some [] then ls.dropLast else ls

/-- A definition whose end has not been reached; `parts` are those read so far. -/
structure Pending where
  name : Name
  position : Position
  parts : List Part

def Pending.close (p : Pending) : Chunk := .definition ⟨p.name, p.position, p.parts⟩

def Pending.add (p : Pending) (part : Part) : Pending := { p with parts := p.parts ++ [part] }

def closed (pending : Option Pending) : List Chunk := (pending.map Pending.close).toList

/-- The number of the first header whose name is blank. -/
structure BlankHeader where
  line : Nat
deriving DecidableEq

/-- Reads the lines that follow the first `passed` ones. -/
def readLines (file : FileName) (passed : Nat) (pending : Option Pending) :
    List Text → Except BlankHeader (List Chunk)
  | [] => .ok (closed pending)
  | line :: rest =>
    match header? line with
    | some inner =>
      match Name.ofText? (Text.trim inner) with
      | none => .error ⟨passed + 1⟩
      | some name =>
        let opened := ⟨name, ⟨file, passed + 1, by omega⟩, []⟩
        (readLines file (passed + 1) (some opened) rest).map (closed pending ++ ·)
    | none =>
      match pending with
      | none => (readLines file (passed + 1) none rest).map (.narrative line :: ·)
      | some p =>
        if isEnd line then (readLines file (passed + 1) none rest).map (p.close :: ·)
        else readLines file (passed + 1) (some (p.add (bodyPart line))) rest

/-- The chunks of a document in order, unless some header has a blank name. -/
def parse (file : FileName) (text : Text) : Except BlankHeader (List Chunk) :=
  readLines file 0 none (sourceLines text)

def parsedEvent (file : Value) (text : Text) (chunks : List Chunk) : Event :=
  ⟨.debug, "document_parsed",
    [("file_path", file), ("line_count", .int (sourceLines text).length),
     ("chunk_count", .int chunks.length)]⟩

/-- A file that is not named by text can hold narrative only: the first header fails, for its blank
name or else for its position. -/
def parseNamed (file : Value) (text : Text) : Except Fault (List Chunk) :=
  match file with
  | .text name =>
    if h : name ≠ [] then (parse ⟨name, h⟩ text).mapError fun b => .blankHeader file b.line
    else .error .noFileName
  | _ =>
    let ls := sourceLines text
    match ls.zipIdx.findSome? fun (l, i) => (header? l).map (·, i) with
    | none => .ok (ls.map Chunk.narrative)
    | some (inner, i) =>
      if Text.isBlank inner then .error (.blankHeader file (i + 1))
      else .error (.invalid [⟨[.field "file_path"], .notText⟩])

/-- The chunks of a document; both arguments are checked, the text first. -/
def read (text file : Value) : Traced (List Chunk) := do
  match text with
  | .text s =>
    if file.isTruthy then
      let chunks ← Traced.of (parseNamed file s)
      Traced.emit (parsedEvent file s chunks)
      return chunks
    else Traced.fail .noFileName
  | _ => Traced.fail .notText

theorem result_read (file : FileName) (s : Text) :
    (read (.text s) (.text file.val)).result =
      (parse file s).mapError fun b => .blankHeader (.text file.val) b.line := by
  have ht : Value.isTruthy (.text file.val) = true := by
    simpa [Value.isTruthy] using file.property
  have hn : parseNamed (.text file.val) s =
      (parse file s).mapError fun b => .blankHeader (.text file.val) b.line := by
    simp [parseNamed, file.property]
  simp only [read, ht, if_true, hn, Traced.result_bind, Traced.result_of, Traced.result_emit,
    Traced.result_pure]
  cases parse file s <;> rfl

end Literate.Document
