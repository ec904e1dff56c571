import Literate.Settings.Basic
import Literate.Text.Basic

namespace Literate.Assignments

/-- A blank that does not end a line. -/
def isInnerBlank (c : Char) : Bool := Text.isBlankChar c && c != '\n' && c != '\r'

def isLineEnd (c : Char) : Bool := c == '\n' || c == '\r'

/-- The word `export` and the blanks after it are passed over. -/
def skipExport (s : Text) : Text :=
  match Text.afterPrefix? "export" s with
  | some rest => if rest.head?.any isInnerBlank then rest.dropWhile isInnerBlank else s
  | none => s

/-- The text up to the mark that closes it, which has no backslash in front; where every mark has
one, the last mark closes. -/
def closeQuote (mark : Char) (escaped : Bool) : Text → Option (Text × Text)
  | [] => none
  | c :: s =>
    if c = mark ∧ escaped = false then some ([], s)
    else
      match closeQuote mark (c == '\\') s with
      | some (inner, rest) => some (c :: inner, rest)
      | none => if c = mark then some ([], s) else none

def controlChar? : Char → Option Char
  | 'a' => some '\x07'
  | 'b' => some '\x08'
  | 'f' => some '\x0c'
  | 'n' => some '\n'
  | 'r' => some '\r'
  | 't' => some '\t'
  | 'v' => some '\x0b'
  | _ => none

/-- Within double marks all escapes count, within single marks only those of marks' own kind and of
the backslash. -/
def unescape (mark : Char) : Text → Text
  | '\\' :: c :: s =>
    if c = '\\' ∨ c = '\'' ∨ (c = '"' ∧ mark = '"') then c :: unescape mark s
    else
      match if mark = '"' then controlChar? c else none with
      | some d => d :: unescape mark s
      | none => '\\' :: unescape mark (c :: s)
  | c :: s => c :: unescape mark s
  | [] => []

/-- A bare value ends where a blank is followed by a hash. -/
def cutComment : Text → Text
  | [] => []
  | c :: s =>
    if Text.isBlankChar c && (s.dropWhile Text.isBlankChar).head? == some '#' then []
    else c :: cutComment s

def value? (s : Text) : Option (Text × Text) :=
  match s with
  | '\'' :: rest => (closeQuote '\'' false rest).map fun (v, r) => (unescape '\'' v, r)
  | '"' :: rest => (closeQuote '"' false rest).map fun (v, r) => (unescape '"' v, r)
  | s =>
    let line := s.takeWhile fun c => !isLineEnd c
    some (Text.trimEnd (cutComment line), s.drop line.length)

/-- A name, bare or in single marks; a comment has none. -/
def name? (s : Text) : Option (Option Text × Text) :=
  match s with
  | '#' :: _ => some (none, s)
  | '\'' :: rest =>
    let name := rest.takeWhile (· != '\'')
    match rest.drop name.length with
    | _ :: r => if name.isEmpty then none else some (some name, r)
    | [] => none
  | s =>
    let name := s.takeWhile fun c => c != '=' && c != '#' && !Text.isBlankChar c
    if name.isEmpty then none else some (some name, s.drop name.length)

def skipComment (s : Text) : Text :=
  match s.dropWhile isInnerBlank with
  | '#' :: rest => rest.dropWhile fun c => !isLineEnd c
  | _ => s

def lineEnd? (s : Text) : Option Text :=
  match s.dropWhile isInnerBlank with
  | [] => some []
  | c :: rest => if isLineEnd c then some rest else none

def skipLine (s : Text) : Text := (s.dropWhile fun c => !isLineEnd c).drop 1

/-- One assignment with the text after it, or only the text after a line without meaning. A name
without an equals sign is given no value. -/
def binding (s : Text) : Option (Text × Option Text) × Text :=
  let s := skipExport (Text.trimStart s)
  match name? s with
  | none => (none, skipLine s)
  | some (name, afterName) =>
    let s := afterName.dropWhile isInnerBlank
    match s with
    | '=' :: rest =>
      let s := rest.dropWhile isInnerBlank
      match value? s with
      | none => (none, skipLine s)
      | some (v, afterValue) =>
        let s := skipComment afterValue
        match lineEnd? s with
        | none => (none, skipLine s)
        | some r => (name.map (·, some v), r)
    | s =>
      let s := skipComment s
      match lineEnd? s with
      | none => (none, skipLine s)
      | some r => (name.map (·, none), r)

/-- The assignments of a text in order; every one takes a character at least. -/
def readFrom (fuel : Nat) (s : Text) : List (Text × Option Text) :=
  match fuel with
  | 0 => []
  | fuel + 1 =>
    if s.isEmpty then []
    else
      let (b, rest) := binding s
      b.toList ++ readFrom fuel rest

def read (s : Text) : List (Text × Option Text) := readFrom (s.length + 1) s

/-- A reference to a variable in braces, with its default, and the text after it. -/
def reference? (s : Text) : Option (Text × Text × Text) := do
  let s ← Text.afterPrefix? "$\x7b" s
  let name := s.takeWhile fun c => c != '\x7d' && c != ':'
  let s := s.drop name.length
  match s with
  | '\x7d' :: rest => return (name, [], rest)
  | ':' :: '-' :: rest =>
    let default := rest.takeWhile (· != '\x7d')
    let _ ← (rest.drop default.length).head?
    return (name, default, rest.drop (default.length + 1))
  | _ => none

/-- References replaced by the values of the variables, or by their defaults. -/
def interpolate (known : Text → Option Text) (fuel : Nat) (s : Text) : Text :=
  match fuel, s with
  | 0, s => s
  | _, [] => []
  | fuel + 1, c :: s =>
    match reference? (c :: s) with
    | some (name, default, rest) =>
      (known name).getD default ++ interpolate known fuel rest
    | none => c :: interpolate known fuel s

/-- Values with their references replaced: an assignment sees the ones before it, and the
environment where there is none. A name without value stands for nothing. -/
def resolveFrom (environment : List (Text × Text)) (before : List (Text × Option Text)) :
    List (Text × Option Text) → List (Text × Option Text)
  | [] => []
  | (name, v) :: rest =>
    let known (n : Text) :=
      match before.lookup n with
      | some value => some (value.getD [])
      | none => environment.lookup n
    let resolved := v.map fun s => interpolate known (s.length + 1) s
    (name, resolved) :: resolveFrom environment ((name, resolved) :: before) rest

def resolve (environment : List (Text × Text)) (assignments : List (Text × Option Text)) :
    List (Text × Option Text) :=
  resolveFrom environment [] assignments

end Literate.Assignments

namespace Literate.Settings

def environmentPrefix : Text := "litweave_"

def first? {α : Type} (values : List (Text × α)) (name : Text) : Option α :=
  (values.find? fun p => Text.lower p.1 == name).map (·.2)

def last? {α : Type} (values : List (Text × α)) (name : Text) : Option α :=
  first? values.reverse name

/-- What the sources say of a setting. Of several spellings of its name the first argument counts,
but the last variable and the last assignment. -/
def sourced (arguments : Fields) (environment : List (Text × Text))
    (assignments : List (Text × Option Text)) (k : Setting) : Option Value :=
  let name := environmentPrefix ++ k.name
  (first? arguments k.name).or
    (((last? environment name).or (last? assignments name).join).map Value.text)

/-- The settings that arguments, an environment and the text of a file of assignments give. -/
def load (arguments : Fields) (environment : List (Text × Text)) (file : Option Text) :
    Checked Settings :=
  let text := Text.universalNewlines (Text.withoutMark (file.getD []))
  let assignments := Assignments.resolve environment (Assignments.read text)
  ofGiven (sourced arguments environment assignments) Setting.all

end Literate.Settings
