import Literate.Document.Reading
import Literate.File.Path
import Literate.Production.Libraries
import Literate.Settings.Basic
import Literate.Tangle.Reporting
import Literate.Text.Lower
import Literate.Weave.Reporting

namespace Literate.Naming

def documentSuffix : Text := ".lit"

/-- The name of a document without its suffix, in any case; a name that is nothing but the suffix is
kept. -/
def stem (source : Path) : Text :=
  let name := source.name
  if Text.endsWith documentSuffix (Text.lower name) ∧ documentSuffix.length < name.length then
    name.take (name.length - documentSuffix.length)
  else name

/-- The extension of the code, which decides on its language. -/
def extension (source : Path) : Text := Path.suffix (Path.ofText (stem source)).name

end Literate.Naming

namespace Literate

/-- Which outputs are wanted, and where. -/
structure OutputOptions where
  code : Bool := true
  html : Bool := true
  markdown : Bool := true
  annotate : Bool := false
  codeFolder : Path
  docsFolder : Path
  stylesheet : Option Text := none

/-- Outputs in order; each path once. -/
abbrev Outputs := List (Path × Text)

namespace Outputs

/-- An output for a path that has one already takes its place. -/
def add (o : Outputs) (p : Path) (contents : Text) : Outputs :=
  if o.any (·.1 == p) then o.map fun e => if e.1 = p then (p, contents) else e
  else o ++ [(p, contents)]

def code (settings : Settings) (options : OutputOptions) (source : Path) (chunks : List Chunk) :
    Traced Text :=
  if options.annotate then
    Tangle.locatedCodeTraced (Naming.extension source) chunks settings.rootName
      settings.fallbackComment
  else Tangle.codeTraced chunks settings.rootName

def page (lib : Libraries) (settings : Settings) (options : OutputOptions) (source : Path)
    (chunks : List Chunk) : Traced Text :=
  Weave.pageTraced lib.highlighter settings.anchorFiller (Naming.extension source)
    (Naming.stem source) options.stylesheet settings.highlightStyle chunks

def addIf (wanted : Bool) (o : Outputs) (p : Path) (contents : Traced Text) : Traced Outputs := do
  if wanted then return o.add p (← contents) else return o

/-- The wanted outputs of the text of a document. -/
def ofText (lib : Libraries) (settings : Settings) (options : OutputOptions) (source : Path)
    (text : Text) : Traced Outputs := do
  let chunks ← Document.read (.text text) (.text source.toText)
  let stem := Naming.stem source
  let o ← addIf options.code [] (options.codeFolder.child stem)
    (code settings options source chunks)
  let o ← addIf options.html o (options.docsFolder.child (stem ++ ".html"))
    (page lib settings options source chunks)
  addIf options.markdown o (options.docsFolder.child (stem ++ ".md"))
    (Weave.markdownTraced (Naming.extension source) chunks)

end Outputs

end Literate
