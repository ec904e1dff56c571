import Literate.Text.Basic

namespace Literate.Markup

/-- A line without its leading blanks, of which there are at most three. -/
def unindented? (line : Text) : Option Text :=
  if (line.takeWhile Text.isBlankChar).length ≤ 3 then some (Text.trimStart line) else none

def afterBlanks? (s : Text) : Option Text :=
  if s.head?.any Text.isBlankChar then some (Text.trimStart s) else none

/-- An opening fence: its mark of three or more ticks or tildes, and the language after it. -/
def fence? (line : Text) : Option (Text × Text) :=
  let s := Text.trimStart line
  let mark := match s with
    | [] => []
    | c :: _ => if c = '\x60' ∨ c = '~' then s.takeWhile (· == c) else []
  if 3 ≤ mark.length then
    let rest := (s.drop mark.length).dropWhile Text.isIndentChar
    some (mark, rest.takeWhile fun c => c != '\x60' && !Text.isBlankChar c)
  else none

def closesFence (mark line : Text) : Bool := Text.startsWith mark (Text.trim line)

/-- The text of a heading without a closing run of hashes, which a blank has to precede. -/
def headingText (s : Text) : Text :=
  let s := Text.trimEnd s
  let before := Text.dropEndWhile (· == '#') s
  if before.length < s.length ∧ before.getLast?.any Text.isBlankChar then Text.trimEnd before
  else s

def heading? (line : Text) : Option (Nat × Text) := do
  let s ← unindented? line
  let level := (s.takeWhile (· == '#')).length
  guard (1 ≤ level ∧ level ≤ 6)
  let rest ← afterBlanks? (s.drop level)
  return (level, headingText rest)

def isRule (line : Text) : Bool :=
  match unindented? line with
  | some (c :: s) =>
    (c == '-' || c == '*' || c == '_') && s.all (fun d => d == c || Text.isBlankChar d) &&
      2 ≤ s.countP (· == c)
  | _ => false

def quote? (line : Text) : Option Text := do
  match ← unindented? line with
  | '>' :: c :: s => return if Text.isBlankChar c then s else c :: s
  | ['>'] => return []
  | _ => none

def bullet? (line : Text) : Option Text := do
  match ← unindented? line with
  | c :: s => if c = '-' ∨ c = '+' ∨ c = '*' then afterBlanks? s else none
  | [] => none

def numbered? (line : Text) : Option Text := do
  let s ← unindented? line
  guard (s.head?.any isDecimalDigit)
  match s.dropWhile isDecimalDigit with
  | c :: rest => if c = '.' ∨ c = ')' then afterBlanks? rest else none
  | [] => none

/-- A line that goes on with the item of a list before it. -/
def continuesItem (line : Text) : Bool :=
  !Text.isBlank line && line.head?.any Text.isIndentChar

end Literate.Markup
