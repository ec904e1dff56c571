import Literate.File.Path
import Literate.Text.Basic
import Literate.Text.Quoted

namespace Literate.Command

inductive Switch where
  | help
  | version
  | html
  | markdown
  | code
  | annotate
  | css
  | docsDir
  | codeDir
  | watch
  | logLevel
  | logFormat
deriving DecidableEq

namespace Switch

def spellings : List (String × Switch) :=
  [("-h", help), ("--help", help), ("--version", version), ("--html", html),
   ("--markdown", markdown), ("--code", code), ("--annotate", annotate), ("--css", css),
   ("--docs-dir", docsDir), ("--code-dir", codeDir), ("--watch", watch),
   ("--log-level", logLevel), ("--log-format", logFormat)]

def ofSpelling? (s : Text) : Option Switch :=
  (spellings.find? fun p => p.1.toList == s).map (·.2)

def shown (k : Switch) : Text :=
  Text.join ['/'] ((spellings.filter (·.2 == k)).map fun p => p.1.toList)

def takesValue : Switch → Bool
  | css | docsDir | codeDir | logLevel | logFormat => true
  | _ => false

end Switch

/-- A value in the same argument as its switch. -/
inductive Joined where
  | behindEquals (value : Text)
  /-- Directly behind a short switch. -/
  | attached (value : Text)

def Joined.value : Joined → Text
  | behindEquals value => value
  | attached value => value

inductive Token where
  | plain (s : Text)
  /-- Two dashes, after which everything is plain. -/
  | separator
  /-- A known switch, its spelling, and a value joined to it. -/
  | switch (k : Switch) (spelling : Text) (joined : Option Joined)
  | unknown (s : Text)

def Token.text : Token → Text
  | plain s => s
  | separator => "--"
  | switch _ spelling _ => spelling
  | unknown s => s

def Token.isPlain : Token → Bool
  | plain _ => true
  | _ => false

def Token.isArgument : Token → Bool
  | plain _ | separator => true
  | _ => false

inductive Refusal where
  | help
  | version
  | wrong (message : Text)

def ambiguous (s : Text) (found : List Text) : Refusal :=
  .wrong ("ambiguous option: " ++ s ++ " could match " ++ Text.join ", " found)

def wrongSwitch (k : Switch) (message : Text) : Refusal :=
  .wrong ("argument " ++ k.shown ++ ": " ++ message)

def splitEquals? (s : Text) : Option (Text × Text) :=
  let name := s.takeWhile (· != '=')
  match s.drop name.length with
  | _ :: value => some (name, value)
  | [] => none

/-- The switches that a spelling may stand for: long ones by any beginning, and a short one with a
value joined to it. -/
def candidates (s : Text) : List (Switch × Text × Option Joined) :=
  match s with
  | '-' :: '-' :: _ =>
    let (beginning, joined) := match splitEquals? s with
      | some (name, value) => (name, some (Joined.behindEquals value))
      | none => (s, none)
    Switch.spellings.filterMap fun (spelling, k) =>
      if Text.startsWith beginning spelling.toList then some (k, spelling.toList, joined)
      else none
  | _ =>
    Switch.spellings.filterMap fun (spelling, k) =>
      if spelling.toList == s.take 2 then some (k, spelling.toList, some (.attached (s.drop 2)))
      else if Text.startsWith s spelling.toList then some (k, spelling.toList, none)
      else none

/-- A dash with digits, among which a point may stand before the last. -/
def isNegativeNumber (s : Text) : Bool :=
  match s with
  | '-' :: digits =>
    let rest := digits.dropWhile isDecimalDigit
    match rest with
    | [] => !digits.isEmpty
    | '.' :: places => !places.isEmpty && places.all isDecimalDigit
    | _ => false
  | _ => false

def withValue? (p : Text × Text) : Option Token :=
  (Switch.ofSpelling? p.1).map fun k => .switch k p.1 (some (.behindEquals p.2))

def classify (s : Text) : Except Refusal Token :=
  if s.head? ≠ some '-' then .ok (.plain s)
  else
    match Switch.ofSpelling? s with
    | some k => .ok (.switch k s none)
    | none =>
      if s.length = 1 then .ok (.plain s)
      else
        match (splitEquals? s).bind withValue? with
        | some t => .ok t
        | none =>
          match candidates s with
          | [(k, spelling, joined)] => .ok (.switch k spelling joined)
          | [] =>
            if isNegativeNumber s || s.contains ' ' then .ok (.plain s) else .ok (.unknown s)
          | several => .error (ambiguous s (several.map fun c => c.2.1))

def tokens : List Text → Except Refusal (List Token)
  | [] => .ok []
  | s :: rest =>
    if s = ['-', '-'] then .ok (.separator :: rest.map Token.plain)
    else
      match classify s with
      | .error e => .error e
      | .ok t => (tokens rest).map (t :: ·)

structure Arguments where
  files : List Text := []
  html : Bool := false
  markdown : Bool := false
  code : Bool := false
  annotate : Bool := false
  css : Option Text := none
  docsDir : Option Text := none
  codeDir : Option Text := none
  watch : Bool := false
  logLevel : Option Text := none
  logFormat : Option Text := none

/-- The arguments taken so far, and those that nothing took. -/
structure Taken where
  arguments : Arguments := {}
  leftOver : List Text := []

def formats : List Text := ["json", "console"]

def Arguments.turnOn (a : Arguments) : Switch → Except Refusal Arguments
  | .help => .error .help
  | .version => .error .version
  | .html => .ok { a with html := true }
  | .markdown => .ok { a with markdown := true }
  | .code => .ok { a with code := true }
  | .annotate => .ok { a with annotate := true }
  | .watch => .ok { a with watch := true }
  | _ => .ok a

def Arguments.give (a : Arguments) (k : Switch) (value : Text) : Except Refusal Arguments :=
  match k with
  | .css => .ok { a with css := some value }
  | .docsDir => .ok { a with docsDir := some value }
  | .codeDir => .ok { a with codeDir := some value }
  | .logLevel => .ok { a with logLevel := some value }
  | .logFormat =>
    if value ∈ formats then .ok { a with logFormat := some value }
    else
      .error (wrongSwitch k ("invalid choice: " ++ Text.quote value ++ " (choose from " ++
        Text.join ", " (formats.map Text.quote) ++ ")"))
  | _ => .ok a

def ignoredValue (k : Switch) (value : Text) : Refusal :=
  wrongSwitch k ("ignored explicit argument " ++ Text.quote value)

/-- What stands directly behind the short switch `k`, which asks for help: it may be the same switch
again, but neither a dash nor a value behind an equals sign. -/
def attachedToHelp (k : Switch) : Text → Refusal
  | 'h' :: s => attachedToHelp k s
  | '=' :: value => ignoredValue k value
  | '-' :: s => ignoredValue k ('-' :: s)
  | _ => .help

def joinedWithoutValue (k : Switch) : Joined → Refusal
  | .behindEquals value => ignoredValue k value
  | .attached value => attachedToHelp k value

/-- Takes a switch; tells how many of the tokens after it belong to it. -/
def takeSwitch (a : Arguments) (k : Switch) (joined : Option Joined) (rest : List Token) :
    Except Refusal (Arguments × Nat) :=
  match joined with
  | some j =>
    if k.takesValue then (a.give k j.value).map (·, 0)
    else .error (joinedWithoutValue k j)
  | none =>
    if k.takesValue then
      match rest with
      | .plain value :: _ => (a.give k value).map (·, 1)
      | _ => .error (wrongSwitch k "expected one argument")
    else (a.turnOn k).map (·, 0)

/-- The first group of arguments with a plain one among them holds the files; the first separator in
it is dropped. -/
def takeGroup (t : Taken) (group : List Token) : Taken :=
  let texts := group.map Token.text
  if t.arguments.files.isEmpty && group.any Token.isPlain then
    { t with arguments := { t.arguments with files := texts.erase ['-', '-'] } }
  else { t with leftOver := t.leftOver ++ texts }

/-- Takes the tokens from left to right, when `skip` of them are taken already. -/
def takeFrom (t : Taken) (skip : Nat) : List Token → Except Refusal Taken
  | [] => .ok t
  | token :: rest =>
    if 0 < skip then takeFrom t (skip - 1) rest
    else
      match token with
      | .switch k _ joined =>
        match takeSwitch t.arguments k joined rest with
        | .error e => .error e
        | .ok (a, n) => takeFrom { t with arguments := a } n rest
      | .unknown s => takeFrom { t with leftOver := t.leftOver ++ [s] } 0 rest
      | _ =>
        let more := rest.takeWhile Token.isArgument
        takeFrom (takeGroup t (token :: more)) more.length rest

def parse (arguments : List Text) : Except Refusal Arguments := do
  let t ← takeFrom {} 0 (← tokens arguments)
  if t.arguments.files.isEmpty then
    .error (.wrong "the following arguments are required: FILE")
  else if !t.leftOver.isEmpty then
    .error (.wrong ("unrecognized arguments: " ++ Text.join [' '] t.leftOver))
  else .ok t.arguments

def programName : Text := "litweave"

def versionText : Text := programName ++ " 0.3.0\n"

def usageText : Text :=
  "usage: litweave [-h] [--version] [--html] [--markdown] [--code] [--annotate]\n" ++
  "                [--css PATH] [--docs-dir DIR] [--code-dir DIR] [--watch]\n" ++
  "                [--log-level LOG_LEVEL] [--log-format \x7bjson,console\x7d]\n" ++
  "                FILE [FILE ...]\n"

def helpText : Text :=
  usageText ++
  ("\nGenerate code and documentation from literate documents\n" ++
  "\npositional arguments:\n" ++
  "  FILE                  Literate documents\n" ++
  "\noptions:\n" ++
  "  -h, --help            show this help message and exit\n" ++
  "  --version             show program's version number and exit\n" ++
  "  --watch               Regenerate outputs whenever a document changes\n" ++
  "  --log-level LOG_LEVEL\n" ++
  "                        Log level (default: LITWEAVE_LOG_LEVEL or INFO)\n" ++
  "  --log-format \x7bjson,console\x7d\n" ++
  "                        Log format (default: LITWEAVE_LOG_FORMAT or console)\n" ++
  "\noutputs:\n" ++
  "  --html                Generate HTML documentation\n" ++
  "  --markdown            Generate Markdown documentation\n" ++
  "  --code                Generate source code\n" ++
  "  --annotate            Prefix each macro in generated code with a file:line\n" ++
  "                        comment\n" ++
  "  --css PATH            Stylesheet to link from HTML output\n" ++
  "  --docs-dir DIR        Directory for HTML/Markdown output (default: current\n" ++
  "                        directory)\n" ++
  "  --code-dir DIR        Directory for code output (default: current directory)\n" : String)

def errorLine (message : Text) : Text := programName ++ ": error: " ++ message ++ "\n"

def usageError (message : Text) : Text := usageText ++ errorLine message

end Literate.Command
