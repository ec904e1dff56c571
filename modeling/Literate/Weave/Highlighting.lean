import Literate.Fault.Report
import Literate.Markup.Inline
import Literate.Tangle.Location

namespace Literate.Weave

/-- What shows code in colours. A language is a way to make HTML of code. -/
structure Highlighter where
  /-- No language at all. -/
  plain : Text → Text
  /-- The language of the files of a name. -/
  ofFileName? : Text → Option (Text → Text)
  /-- The style rules for highlighted code, by the name of the style. -/
  rules : Text → Except Mishap Text

/-- The language of an extension; where there is none, code is plain text. -/
def Highlighter.ofExtension (h : Highlighter) (extension : Text) : Text → Text :=
  match Tangle.dottedExtension extension with
  | [] => h.plain
  | dotted => (h.ofFileName? ("source" ++ dotted)).getD h.plain

/-- A fragment of code between tags; its last line is ended only if it was in the fragment. -/
def codeHtml (h : Highlighter) (extension code : Text) : Text :=
  if code.isEmpty then []
  else
    let shown := h.ofExtension extension code
    if code.getLast? ≠ some '\n' ∧ shown.getLast? = some '\n' then shown.dropLast else shown

/-- Without a byte order mark, and with line feeds as the only line ends. -/
def cleanCode (code : Text) : Text := Text.universalNewlines (Text.withoutMark code)

def endLine (s : Text) : Text :=
  if s.isEmpty || s.getLast? == some '\n' then s else s ++ ['\n']

namespace Highlighter

def bareStyles : List Text := ["default", "monokai", "friendly"]

/-- A highlighter that knows no languages, and a few styles by their names alone. -/
def bare : Highlighter where
  plain code := endLine (Markup.escapeContent (cleanCode code))
  ofFileName? _ := none
  rules style :=
    if style ∈ bareStyles then .ok ("/* pygments:" ++ style ++ " */")
    else .error ⟨"ClassNotFound",
      "Could not find style module 'pygments.styles." ++ style ++ "'."⟩

end Highlighter

end Literate.Weave
