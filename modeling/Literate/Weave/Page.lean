import Literate.Document.Basic
import Literate.Markup.Block
import Literate.Weave.Highlighting

namespace Literate.Weave

/-- A name without blanks around it and with its spaces replaced. Different names may agree in
it. -/
def plainAnchor (filler name : Text) : Text :=
  (Text.trim name).flatMap fun c => if c = ' ' then filler else [c]

def numbered (base : Text) (k : Nat) : Text := base ++ '-' :: Text.ofNat k

/-- The base itself or else the base with the least number from two on that is not taken. Among one
more numbers than there are taken anchors, one is free. -/
def freeAnchor (taken : List Text) (base : Text) : Text :=
  if base ∈ taken then
    let candidates := (List.range (taken.length + 1)).map fun i => numbered base (i + 2)
    (candidates.find? fun a => decide (a ∉ taken)).getD base
  else base

abbrev Anchors := List (Text × Text)

def Anchors.names (a : Anchors) : List Text := a.map (·.1)

def Anchors.taken (a : Anchors) : List Text := a.map (·.2)

/-- Goes on with the keys in document order when some have their anchors already. -/
def anchorsFrom (filler : Text) (assigned : Anchors) : List Text → Anchors
  | [] => assigned
  | k :: ks =>
    if k ∈ assigned.names then anchorsFrom filler assigned ks
    else
      let anchor := freeAnchor assigned.taken (plainAnchor filler k)
      anchorsFrom filler (assigned ++ [(k, anchor)]) ks

/-- The anchors of the macros that a document defines, in the order of their first definitions. -/
def documentAnchors {υ : Type} (filler : Text) (chunks : List (Chunk υ)) : Anchors :=
  anchorsFrom filler [] ((Document.definitions chunks).map Definition.key)

def defaultFiller : Text := "_"

open Markup

def macroLabel (name : Text) : Text := "&lt;&lt; " ++ escape (Text.trim name) ++ " &gt;&gt;"

/-- The anchor of a macro; a plain one where none, or an empty one, is assigned. -/
def anchorOf (filler : Text) (anchors : Anchors) (name : Text) : Text :=
  match anchors.lookup (Text.trim name) with
  | some (c :: s) => c :: s
  | _ => plainAnchor filler (Text.trim name)

/-- A body as fragments of code, made of adjacent literals, and references between them. -/
inductive Fragment where
  | code (text : Text)
  | reference (target : Name) (indent : Text)

def addLiteral (s : Text) : List Fragment → List Fragment
  | .code t :: fs => .code (s ++ t) :: fs
  | fs => .code s :: fs

def fragments : List Part → List Fragment
  | [] => []
  | .literal s :: ps => addLiteral s (fragments ps)
  | .reference t i :: ps => .reference t i :: fragments ps

def linkOf (anchor label : Text) (attributes : Text) : Text :=
  "<a" ++ attributes ++ " href=\"#" ++ escape anchor ++ "\">" ++ label ++ "</a>"

variable (h : Highlighter) (filler extension : Text)

def fragmentHtml (anchors : Anchors) : Fragment → Text
  | .code s => codeHtml h extension s
  | .reference target indent =>
    escape indent ++
      linkOf (anchorOf filler anchors target.text) (macroLabel target.text)
        " class=\"macro-ref\"" ++ "\n"

/-- The operator of a header: a later definition of a name adds to the first. -/
def operator (first : Bool) : Text := if first then "=" else "+="

def partsHtml (anchors : Anchors) (parts : List Part) : Text :=
  (fragments parts).flatMap (fragmentHtml h filler extension anchors)

def definitionBlock (anchors : Anchors) (first : Bool) (d : Definition) : Text :=
  let anchor := anchorOf filler anchors d.name.text
  let id : Text := if first then " id=\"" ++ escape anchor ++ "\"" else []
  "<div class=\"definition\"" ++ id ++ ">\n" ++
    "<p class=\"macro-header\">" ++
    linkOf anchor (macroLabel d.name.text ++ operator first) [] ++ "</p>\n" ++
    "<pre class=\"highlight\"><code>" ++ partsHtml h filler extension anchors d.parts ++
    "</code></pre>\n" ++ "</div>"

/-- Prose that comes to nothing leaves no block. -/
def proseBlock (lines : List Text) : List Text :=
  if lines.isEmpty then []
  else
    match proseHtml (Text.joinLines lines) with
    | [] => []
    | html => [html]

/-- The blocks of a page: `seen` are the keys defined before, `prose` the lines before that wait to
become a block. -/
def pageBlocks (anchors : Anchors) (seen : List Text) (prose : List Text) :
    List Chunk → List Text
  | [] => proseBlock prose
  | .narrative line :: cs => pageBlocks anchors seen (prose ++ [line]) cs
  | .definition d :: cs =>
    proseBlock prose ++ definitionBlock h filler extension anchors (decide (d.key ∉ seen)) d ::
      pageBlocks anchors (d.key :: seen) [] cs

def pageBody (chunks : List Chunk) : Text :=
  Text.joinLines (pageBlocks h filler extension (documentAnchors filler chunks) [] [] chunks)

def defaultRules : Text :=
  "body \x7b max-width: 50em; margin: 2em auto; padding: 0 1em;\n" ++
  "       font-family: Georgia, serif; line-height: 1.5; color: #222; \x7d\n" ++
  "pre, code \x7b font-family: Menlo, Consolas, monospace; font-size: 0.9em; \x7d\n" ++
  ".definition \x7b margin: 1em 0; \x7d\n" ++
  ".macro-header \x7b margin: 0; font-family: Menlo, Consolas, monospace; " ++
  "font-size: 0.9em; \x7d\n" ++
  ".macro-header a \x7b color: #555; text-decoration: none; \x7d\n" ++
  "pre.highlight \x7b margin: 0.2em 0 0 0; padding: 0.6em; background: #f6f6f6; " ++
  "overflow-x: auto; \x7d\n" ++
  "a.macro-ref \x7b color: #06c; \x7d\n"

/-- Where a page takes its style rules from. -/
inductive Styling where
  | linked (address : Text)
  | embedded (rules : Text)

def styleElement : Styling → Text
  | .linked address => "<link rel=\"stylesheet\" href=\"" ++ escape address ++ "\">"
  | .embedded rules => "<style>\n" ++ defaultRules ++ rules ++ "\n</style>"

def page (title : Text) (styling : Styling) (chunks : List Chunk) : Text :=
  "<!DOCTYPE html>\n<html>\n<head>\n<meta charset=\"utf-8\">\n" ++
    "<title>" ++ escape title ++ "</title>\n" ++
    styleElement styling ++ "\n</head>\n<body>\n" ++
    pageBody h filler extension chunks ++ "\n</body>\n</html>\n"

end Literate.Weave
