import Literate.Text.Basic
import Literate.Text.Word

namespace Literate.Markup

/-- The entity of a character that would be markup between tags. -/
def escapeContentChar (c : Char) : Text :=
  if c = '&' then "&amp;"
  else if c = '<' then "&lt;"
  else if c = '>' then "&gt;"
  else [c]

/-- The entity of a character that would be markup between tags or in an attribute. -/
def escapeChar (c : Char) : Text :=
  if c = '"' then "&quot;"
  else if c = '\'' then "&#x27;"
  else escapeContentChar c

def escapeContent (s : Text) : Text := s.flatMap escapeContentChar

def escape (s : Text) : Text := s.flatMap escapeChar

/-- Given the character before and the text from here on, a rule may give a replacement and the
number of characters that it replaces. -/
abbrev Rule := Option Char → Text → Option (Text × Nat)

/-- Applies a rule wherever it first fires; `skip` characters have been replaced already. What
stands before is the text as it was, not the replacement. -/
def substituteFrom (rule : Rule) (before : Option Char) (skip : Nat) : Text → Text
  | [] => []
  | c :: s =>
    if 0 < skip then substituteFrom rule (some c) (skip - 1) s
    else
      match rule before (c :: s) with
      | some (replacement, n) => replacement ++ substituteFrom rule (some c) (n - 1) s
      | none => c :: substituteFrom rule (some c) 0 s

def substitute (rule : Rule) (s : Text) : Text := substituteFrom rule none 0 s

/-- The shortest non-empty beginning, free of line feeds, after which `stop` holds. -/
def shortest (stop : Text → Bool) : Text → Option Text
  | [] => none
  | c :: s =>
    if c = '\n' then none
    else if stop s then some [c]
    else (shortest stop s).map (c :: ·)

/-- A label in brackets that holds no closing bracket, and a target in parentheses that holds
neither a closing one nor a blank; also the number of characters taken. -/
def labelled? (s : Text) : Option (Text × Text × Nat) := do
  let s ← Text.afterPrefix? "[" s
  let label := s.takeWhile (· != ']')
  let s ← Text.afterPrefix? "](" (s.drop label.length)
  let target := s.takeWhile fun c => c != ')' && !Text.isBlankChar c
  let _ ← Text.afterPrefix? ")" (s.drop target.length)
  guard (!target.isEmpty)
  return (label, target, label.length + target.length + 4)

def image : Rule := fun _ s => do
  let (label, target, n) ← labelled? (← Text.afterPrefix? "!" s)
  return ("<img src=\"" ++ target ++ "\" alt=\"" ++ Text.trim label ++ "\">", n + 1)

def link : Rule := fun _ s => do
  let (label, target, n) ← labelled? s
  guard (!label.isEmpty)
  return ("<a href=\"" ++ target ++ "\">" ++ Text.trim label ++ "</a>", n)

/-- A non-empty run of characters that are neither blank nor the start of an entity. -/
def addressRun (s : Text) : Text := s.takeWhile fun c => c != '&' && !Text.isBlankChar c

/-- Runs joined by escaped ampersands; `fuel` bounds their number. -/
def addressTail (fuel : Nat) (s : Text) : Text :=
  match fuel with
  | 0 => []
  | fuel + 1 =>
    match Text.afterPrefix? "&amp;" s with
    | none => []
    | some rest =>
      match addressRun rest with
      | [] => []
      | run => "&amp;" ++ run ++ addressTail fuel (rest.drop run.length)

def autolink : Rule := fun _ s => do
  let inner ← Text.afterPrefix? "&lt;" s
  let scheme : Text ←
    if Text.startsWith "http://" inner then some ("http://" : Text)
    else if Text.startsWith "https://" inner then some "https://"
    else none
  let rest := inner.drop scheme.length
  let run := addressRun rest
  guard (!run.isEmpty)
  let rest := rest.drop run.length
  let tail := addressTail rest.length rest
  let _ ← Text.afterPrefix? "&gt;" (rest.drop tail.length)
  let address := scheme ++ run ++ tail
  return ("<a href=\"" ++ address ++ "\">" ++ address ++ "</a>", address.length + 8)

def isWordBefore (before : Option Char) : Bool := before.any isWord

def startsWord (s : Text) : Bool := s.head?.any isWord

def element (tag content : Text) : Text := "<" ++ tag ++ ">" ++ content ++ "</" ++ tag ++ ">"

def starred (tag mark : Text) : Rule := fun _ s => do
  let content ← shortest (Text.startsWith mark) (← Text.afterPrefix? mark s)
  return (element tag content, content.length + 2 * mark.length)

/-- Content between two marks of low lines, neither of which touches a word outside. -/
def lowLined (tag mark : Text) : Rule := fun before s => do
  guard (!isWordBefore before)
  let closes (r : Text) := Text.startsWith mark r && !startsWord (r.drop mark.length)
  let content ← shortest closes (← Text.afterPrefix? mark s)
  return (element tag content, content.length + 2 * mark.length)

def strong : Rule := fun before s =>
  starred "strong" "**" before s <|> lowLined "strong" "__" before s

/-- A single mark opens emphasis only when no blank follows it. -/
def emphasis : Rule := fun before s =>
  if (s.drop 1).head?.any Text.isBlankChar then none
  else starred "em" "*" before s <|> lowLined "em" "_" before s

def formatProse (s : Text) : Text :=
  [image, link, autolink, strong, emphasis].foldl (fun s rule => substitute rule s) (escape s)

/-- A mark in front of a code span; the span ends at the next mark that is as long. -/
def tick : Char := '\x60'

/-- The content of a code span that starts here and the number of characters taken. Of the possible
lengths of the mark, the longest that is closed counts. -/
def codeSpan? (s : Text) : Option (Text × Nat) :=
  let run := (s.takeWhile (· == tick)).length
  (List.range run).reverse.findSome? fun k =>
    let mark := List.replicate (k + 1) tick
    (shortest (Text.startsWith mark) (s.drop (k + 1))).map fun content =>
      (content, content.length + 2 * (k + 1))

/-- The prose in front of the first code span, and every code span with the prose behind it. -/
def spans (skip : Nat) : Text → Text × List (Text × Text)
  | [] => ([], [])
  | c :: s =>
    if 0 < skip then spans (skip - 1) s
    else
      match codeSpan? (c :: s) with
      | some (code, n) =>
        let (prose, more) := spans (n - 1) s
        ([], (code, prose) :: more)
      | none =>
        let (prose, more) := spans 0 s
        (c :: prose, more)

def codeElement (code : Text) : Text := element "code" (escapeContent (Text.trim code))

def inlineHtml (s : Text) : Text :=
  let (prose, more) := spans 0 s
  formatProse prose ++ more.flatMap fun (code, after) => codeElement code ++ formatProse after

end Literate.Markup
